import StageScript.Proofs.Machine.Local

/-! # Statements
What a body says, apart from how it is laid out in code: instructions on data and calls one after the
other, tests with the statements that they choose between, loops, and switches with their labels.
* `Statement` — what a part of a body says;
* **`Statement.Runs`** — what becomes of a machine that does what a statement says, and which
  instructions on data it carries out on the way. -/

namespace StageScript

open Stepwise

/-- A part of a body. Every block has a number, which a test loads along with what it compares. -/
inductive Statement
  | skip
  | seq (first rest : Statement)
  /-- An instruction on data. -/
  | act (op : Opcode) (arguments : List Argument)
  /-- A call of the function whose number the argument gives. -/
  | call (function : Argument)
  /-- A test that chooses between two parts. Without an `else` the second one is `skip`. -/
  | branch (block : Nat) (comparison : Comparison) (a b : Argument) (yes : Statement)
    (divided : Bool) (no : Statement)
  /-- A part that is repeated as long as a test holds. -/
  | loop (block : Nat) (comparison : Comparison) (a b : Argument) (body : Statement)
  /-- A part that is entered behind the label of a value. -/
  | switch (block : Nat) (a : Argument) (body : Statement)
  /-- A label for a value. -/
  | case (value : Word)
  /-- The label for all other values. -/
  | fallback
  /-- The end of the switch before its last line. -/
  | leave
  deriving DecidableEq, Repr

/-- How a statement ends: the run goes on behind it, it goes on behind the switch around it, or it has
failed. -/
inductive Ending
  | on
  | left
  | failed (fault : Fault)
  deriving DecidableEq, Repr

namespace Ending

/-- How a statement ends that does nothing but one step. -/
def ofResult : Except Fault Unit → Ending
  | .ok _ => .on
  | .error fault => .failed fault

/-- How a switch ends whose part ends so. -/
def close : Ending → Ending
  | .on => .on
  | .left => .on
  | .failed fault => .failed fault

/-- How a sub-script ends whose statements end so. -/
def result : Ending → Except Fault Unit
  | .on => .ok ()
  | .left => .ok ()
  | .failed fault => .error fault

end Ending

/-- An instruction on data, with what it is done to. -/
structure Action where
  opcode : Opcode
  arguments : List Argument
  deriving DecidableEq, Repr

namespace Statement

/-! ## Labels -/

/-- What stands behind the last label of a value, of those that are not in a block inside. -/
def behindCase (value : Word) : Statement → Option Statement
  | seq first rest => (behindCase value rest).or ((behindCase value first).map (seq · rest))
  | case w => if w = value then some skip else none
  | _ => none

/-- What stands behind the last label for all other values. -/
def behindFallback : Statement → Option Statement
  | seq first rest => (behindFallback rest).or ((behindFallback first).map (seq · rest))
  | fallback => some skip
  | _ => none

/-- **Where a switch is entered for a value**: behind the last label of the value, or else behind the
label for all other values, or else at the end. -/
def entered (value : Word) (body : Statement) : Statement :=
  ((behindCase value body).or (behindFallback body)).getD skip

/-- How many labels for all other values there are. -/
def fallbacks : Statement → Nat
  | seq first rest => first.fallbacks + rest.fallbacks
  | fallback => 1
  | _ => 0

/-! ## Steps of statements -/

/-- Loads arguments and answers a question about them. -/
def ask {α : Type} (object : Nat) (arguments : List Argument)
    (answer : Operands → Except Fault α) : Exec α := do
  loadArguments object arguments 0
  let o ← operands
  ExceptT.mk (pure (answer o))

/-- The arguments of a test. -/
def testArguments (block : Nat) (a b : Argument) : List Argument :=
  [.integer (Word.ofNat block), a, b]

/-- The arguments of a switch. -/
def switchArguments (block : Nat) (a : Argument) : List Argument := [.integer (Word.ofNat block), a]

/-- Tests the condition of a branch, where so many blocks are open. The block is opened either way. -/
def test (object blocks block : Nat) (comparison : Comparison) (a b : Argument) : Exec Bool :=
  ask object (testArguments block a b) fun o =>
    if branchDepthLimit ≤ blocks then .error .branchStackOverflow
    else .ok (comparison.holds o[1] o[2])

/-- Tests the condition of a loop. The block is opened if the test holds. -/
def again (object blocks block : Nat) (comparison : Comparison) (a b : Argument) : Exec Bool :=
  ask object (testArguments block a b) fun o =>
    if comparison.holds o[1] o[2] then
      if branchDepthLimit ≤ blocks then .error .branchStackOverflow else .ok true
    else .ok false

/-- Finds the value for which a switch is entered. -/
def select (object blocks block : Nat) (a : Argument) : Exec Word :=
  ask object (switchArguments block a) fun o =>
    if branchDepthLimit ≤ blocks then .error .branchStackOverflow else .ok o[1]

/-- Finds the body of the function that is called, where so many calls are open. -/
def enter (bodies : Nat → Option Statement) (object calls : Nat) (function : Argument) :
    Exec Statement :=
  ask object [function] fun o =>
    match o[0].index?.bind bodies with
    | none => .error (.undefinedFunction o[0])
    | some body => if callDepthLimit ≤ calls then .error .callStackOverflow else .ok body

/-! ## Runs of statements -/

/-- **What becomes of a machine that does what a statement says.** `bodies` are the bodies of the
functions; `blocks` and `calls` say how many blocks and calls are open around the statement. A run
gives the actions that it carries out in their order, how it ends, and the machine at its end. -/
inductive Runs (bodies : Nat → Option Statement) (activation : Activation) :
    (blocks calls : Nat) → Statement → Machine → List Action → Ending → Machine → Prop
  | skip {blocks calls m} : Runs bodies activation blocks calls .skip m [] .on m
  | seq {blocks calls first rest m m' m'' done done' ending}
    (before : Runs bodies activation blocks calls first m done .on m')
    (after : Runs bodies activation blocks calls rest m' done' ending m'') :
    Runs bodies activation blocks calls (.seq first rest) m (done ++ done') ending m''
  /-- What ends otherwise than by going on is not followed by anything. -/
  | cut {blocks calls first rest m m' done ending}
    (before : Runs bodies activation blocks calls first m done ending m') (ends : ending ≠ .on) :
    Runs bodies activation blocks calls (.seq first rest) m done ending m'
  | act {blocks calls op arguments m m' result}
    (did : Instruction.act activation ⟨0, op, arguments⟩ m = (result, m')) :
    Runs bodies activation blocks calls (.act op arguments) m [⟨op, arguments⟩]
      (.ofResult result) m'
  | uncalled {blocks calls function m m' fault}
    (failed : enter bodies activation.object calls function m = (.error fault, m')) :
    Runs bodies activation blocks calls (.call function) m [] (.failed fault) m'
  /-- Behind the body of a function the run goes on behind the call. -/
  | call {blocks calls function body m m' m'' done ending}
    (entered : enter bodies activation.object calls function m = (.ok body, m'))
    (inside : Runs bodies activation blocks (calls + 1) body m' done ending m'') :
    Runs bodies activation blocks calls (.call function) m done ending m''
  | untested {blocks calls block comparison a b yes divided no m m' fault}
    (failed : test activation.object blocks block comparison a b m = (.error fault, m')) :
    Runs bodies activation blocks calls (.branch block comparison a b yes divided no) m []
      (.failed fault) m'
  /-- Exactly one part of a branch is run. -/
  | branch {blocks calls block comparison a b yes divided no m m' m'' holds done ending}
    (tested : test activation.object blocks block comparison a b m = (.ok holds, m'))
    (inside : Runs bodies activation (blocks + 1) calls (if holds then yes else no) m' done ending
      m'') :
    Runs bodies activation blocks calls (.branch block comparison a b yes divided no) m done
      ending m''
  | unrepeated {blocks calls block comparison a b body m m' fault}
    (failed : again activation.object blocks block comparison a b m = (.error fault, m')) :
    Runs bodies activation blocks calls (.loop block comparison a b body) m [] (.failed fault) m'
  /-- A loop ends as soon as its test fails, be it at once. -/
  | finished {blocks calls block comparison a b body m m'}
    (tested : again activation.object blocks block comparison a b m = (.ok false, m')) :
    Runs bodies activation blocks calls (.loop block comparison a b body) m [] .on m'
  /-- The test is made anew before the part is repeated. -/
  | loop {blocks calls block comparison a b body m m' m'' m''' done done' ending}
    (tested : again activation.object blocks block comparison a b m = (.ok true, m'))
    (inside : Runs bodies activation (blocks + 1) calls body m' done .on m'')
    (others : Runs bodies activation blocks calls (.loop block comparison a b body) m'' done'
      ending m''') :
    Runs bodies activation blocks calls (.loop block comparison a b body) m (done ++ done')
      ending m'''
  | broken {blocks calls block comparison a b body m m' m'' done ending}
    (tested : again activation.object blocks block comparison a b m = (.ok true, m'))
    (inside : Runs bodies activation (blocks + 1) calls body m' done ending m'')
    (ends : ending ≠ .on) :
    Runs bodies activation blocks calls (.loop block comparison a b body) m done ending m''
  | unselected {blocks calls block a body m m' fault}
    (failed : select activation.object blocks block a m = (.error fault, m')) :
    Runs bodies activation blocks calls (.switch block a body) m [] (.failed fault) m'
  /-- A switch is run from the label of the value on, past further labels, to its end or to where it is
  left. -/
  | switch {blocks calls block a body m m' m'' value done ending}
    (selected : select activation.object blocks block a m = (.ok value, m'))
    (inside : Runs bodies activation (blocks + 1) calls (body.entered value) m' done ending m'') :
    Runs bodies activation blocks calls (.switch block a body) m done ending.close m''
  | case {blocks calls value m} : Runs bodies activation blocks calls (.case value) m [] .on m
  | fallback {blocks calls m} : Runs bodies activation blocks calls .fallback m [] .on m
  | leave {blocks calls m} : Runs bodies activation blocks calls .leave m [] .left m

end Statement

end StageScript
