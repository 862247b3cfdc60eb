import StageScript.Indexed

/-! # Random numbers
A seeded stream of random words: the ChaCha cipher with twelve rounds, over a key that is drawn from
the seed.
* `Random.wordAt` is the stream, a function of the key and a position;
* `Random.draw` takes the next word, and `Random.below` a number below a bound. -/

namespace StageScript

/-- A place in a stream of random words. -/
structure Random where
  /-- The key of the cipher. -/
  key : Vector UInt32 8
  /-- How many words have been taken. -/
  position : Nat := 0
  deriving DecidableEq, Repr

namespace Random

/-! ## Key -/

/-- A word with its bits moved to the left in a circle. -/
def rotateLeft (w n : UInt32) : UInt32 := w <<< n ||| w >>> (32 - n)

/-- A word with its bits moved to the right in a circle. -/
def rotateRight (w n : UInt32) : UInt32 := w >>> n ||| w <<< ((32 - n) % 32)

/-- The state behind a state of the generator that draws the key. -/
def nextState (s : UInt64) : UInt64 := s * 6364136223846793005 + 11634580027462260723

/-- The word that a state of the generator gives. -/
def stateWord (s : UInt64) : UInt32 :=
  rotateRight (((s >>> 18) ^^^ s) >>> 27).toUInt32 (s >>> 59).toUInt32

/-- The states behind a seed. -/
def states (seed : UInt64) : Nat → UInt64
  | 0 => nextState seed
  | n + 1 => nextState (states seed n)

/-- The beginning of the stream of a seed. -/
def ofSeed (seed : UInt64) : Random :=
  { key := Vector.ofFn fun i => stateWord (states seed i.val) }

/-! ## Cipher -/

/-- The sixteen words that the cipher works on. -/
abbrev Block := Vector UInt32 16

open Indexed (put) in
/-- Mixes four words of a block. -/
def quarterRound (b : Block) (i j k l : Fin 16) : Block :=
  let b := put b i (b.get i + b.get j)
  let b := put b l (rotateLeft (b.get l ^^^ b.get i) 16)
  let b := put b k (b.get k + b.get l)
  let b := put b j (rotateLeft (b.get j ^^^ b.get k) 12)
  let b := put b i (b.get i + b.get j)
  let b := put b l (rotateLeft (b.get l ^^^ b.get i) 8)
  let b := put b k (b.get k + b.get l)
  put b j (rotateLeft (b.get j ^^^ b.get k) 7)

/-- Mixes the columns of a block and then its diagonals. -/
def doubleRound (b : Block) : Block :=
  let b := quarterRound b 0 4 8 12
  let b := quarterRound b 1 5 9 13
  let b := quarterRound b 2 6 10 14
  let b := quarterRound b 3 7 11 15
  let b := quarterRound b 0 5 10 15
  let b := quarterRound b 1 6 11 12
  let b := quarterRound b 2 7 8 13
  quarterRound b 3 4 9 14

/-- The number of words of 32 bits. -/
def wordRange : Nat := 0x100000000

/-- The words that every block begins with. -/
def constants : Vector UInt32 4 := #v[0x61707865, 0x3320646e, 0x79622d32, 0x6b206574]

/-- The block of a counter before it is mixed: four constants, the key, the counter and zeros. -/
def startBlock (key : Vector UInt32 8) (counter : Nat) : Block :=
  let tail : Vector UInt32 4 :=
    #v[UInt32.ofNat counter, UInt32.ofNat (counter / wordRange), 0, 0]
  constants ++ key ++ tail

/-- The block of a counter: twelve rounds, added to what they started from. -/
def block (key : Vector UInt32 8) (counter : Nat) : Block :=
  let start := startBlock key counter
  let mixed := Nat.repeat doubleRound 6 start
  Vector.ofFn fun i => mixed.get i + start.get i

/-- The word at a position of the stream of a key. -/
def wordAt (key : Vector UInt32 8) (position : Nat) : UInt32 :=
  (block key (position / 16)).get ⟨position % 16, Nat.mod_lt _ (by decide)⟩

/-! ## Drawing -/

/-- Takes the next word. -/
def draw (r : Random) : UInt32 × Random :=
  (wordAt r.key r.position, { r with position := r.position + 1 })

/-- How many words are taken at most for one number. Each is refused with a chance below one half. -/
def attempts : Nat := 0x400

/-- The greatest low half that is taken for a bound: one less than the bound moved up until its
topmost bit is set. -/
def zone (bound : Nat) : Nat := bound <<< (31 - Nat.log2 bound) - 1

/-- Draws words until the low half of the product with the bound is in the zone, and gives the high
half. -/
def belowWithin (bound : Nat) : Nat → Random → Nat × Random
  | 0, r => (0, r)
  | fuel + 1, r =>
    let (w, r) := r.draw
    let product := w.toNat * bound
    if product % wordRange ≤ zone bound then (product / wordRange, r)
    else belowWithin bound fuel r

/-- A number below a positive bound, every one as likely as the others. -/
def below (bound : Nat) (r : Random) : Nat × Random := belowWithin bound attempts r

/-- A number below a bound is below it. -/
theorem belowWithin_lt {bound : Nat} (h : 0 < bound) (fuel : Nat) (r : Random) :
    (belowWithin bound fuel r).1 < bound := by
  induction fuel generalizing r with
  | zero => exact h
  | succ fuel ih =>
    unfold belowWithin
    simp only
    split
    · rw [Nat.div_lt_iff_lt_mul (by decide), Nat.mul_comm bound]
      exact Nat.mul_lt_mul_of_pos_right (UInt32.toNat_lt _) h
    · exact ih _

end Random

end StageScript
