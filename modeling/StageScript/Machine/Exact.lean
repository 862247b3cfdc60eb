import StageScript.Machine.Run

/-! # Exact coordinates
Coordinates are added, subtracted and negated in words, which wrap. Here the same is computed with whole
numbers, and every result on the way is told, so that it can be asked whether all of them are words.
* `Exact` — a value that is computed with whole numbers, and what it takes to fit;
* `Scene.exactBounds` — whether an entity is in the active area;
* `Drawing.exactly` — where a drawing instruction places its sprites;
* `stepFits` and `runFits` — whether what a step, and a whole run, computes of these fits. -/

namespace StageScript

/-- Whether a whole number is one of a word. -/
def Word.Holds (n : Int) : Prop := -0x80000000 ≤ n ∧ n < 0x80000000

instance (n : Int) : Decidable (Word.Holds n) := inferInstanceAs (Decidable (_ ∧ _))

/-- A value that is computed with whole numbers, with the result of each operation on the way. -/
structure Exact (α : Type) where
  value : α
  results : List Int := []

namespace Exact

instance : Monad Exact where
  pure a := { value := a }
  bind x f := { value := (f x.value).value, results := x.results ++ (f x.value).results }

/-- The result of an operation. -/
def result (n : Int) : Exact Int := { value := n, results := [n] }

/-- **The computation fits**: every result is one of a word. -/
def Fits {α : Type} (x : Exact α) : Prop := ∀ n ∈ x.results, Word.Holds n

instance {α : Type} (x : Exact α) : Decidable x.Fits := inferInstanceAs (Decidable (∀ n ∈ _, _))

/-- Whether a position lies between the two ends of a screen that is made wider by a margin. The far end is
computed only where the near one is passed. -/
def between (position offset size margin : Int) : Exact Bool := do
  let near ← result (offset - margin)
  if near < position then
    let border ← result (size + margin)
    let far ← result (offset + border)
    return position < far
  else return false

end Exact

open Exact

/-- The pixel part of a 16.16 fixed-point coordinate, as a whole number. -/
def Word.pixel (w : Word) : Int := w.toInt / 0x10000

/-- Whether an entity is in the active area, horizontally or in both directions. Both are computed
either way. -/
def Scene.exactBounds (s : Scene) (e : Entity) (vertical : Bool) : Exact Bool := do
  let x ← between e.xPos.pixel s.screen.xOffset.toInt s.screen.xSize.toInt horizontalMargin.toInt
  let y ← between e.yPos.pixel s.screen.yOffset.toInt s.screen.ySize.toInt verticalMargin.toInt
  return x && (!vertical || y)

/-! ## Sprites -/

/-- Where a sprite is placed, and the point that its effect turns or scales it around, if it has one. -/
structure Placed where
  x : Int
  y : Int
  pivot : Option (Int × Int) := none
  deriving DecidableEq, Repr

/-- The point that an effect turns or scales a sprite around. -/
def SpriteEffect.pivot? : SpriteEffect → Option (Int × Int)
  | .scale _ pivotX pivotY _ _ => some (pivotX.toInt, pivotY.toInt)
  | .rotate _ pivotX pivotY _ => some (pivotX.toInt, pivotY.toInt)
  | .rotoZoom _ pivotX pivotY _ _ => some (pivotX.toInt, pivotY.toInt)
  | .ink .. => none
  | .flip .. => none

/-- The place of a sprite that is drawn. -/
def DrawCommand.placed? : DrawCommand → Option Placed
  | .sprite effect drawn => some ⟨drawn.x.toInt, drawn.y.toInt, effect.bind (·.pivot?)⟩
  | _ => none

/-- Where a point of the stage lies on the screen. -/
def Screen.exactPlace (s : Screen) (x y : Word) : Exact (Int × Int) := do
  let x ← result (x.pixel - s.xOffset.toInt)
  let y ← result (y.pixel - s.yOffset.toInt)
  return (x, y)

namespace Drawing

/-- A sprite frame of the running object's type. -/
def frameAt? (m : Machine) (object : Nat) (number : Int) : Option SpriteFrame :=
  if number < 0 then none
  else m.scene.spriteFrames[(m.typeData (m.objectType object)).frameListOffset + number.toNat]?

/-- A sprite at a point, moved by its pivot. -/
def exactMoved (x y : Int) (pivotX pivotY : Word) : Exact (List Placed) := do
  let x ← result (x + pivotX.toInt)
  let y ← result (y + pivotY.toInt)
  return [{ x, y }]

/-- A sprite frame with its pivot at a point. -/
def exactSprite (m : Machine) (object : Nat) (number x y : Int) : Exact (List Placed) :=
  match frameAt? m object number with
  | some f => exactMoved x y f.pivotX f.pivotY
  | none => return []

/-- A sprite frame with an effect. The pivot is negated whatever the effect is. -/
def exactSpriteEffect (m : Machine) (object : Nat) (number : Int) (kind : Word) (x y : Int) :
    Exact (List Placed) :=
  match frameAt? m object number with
  | none => return []
  | some f => do
    let pivotX ← result (-f.pivotX.toInt)
    let pivotY ← result (-f.pivotY.toInt)
    match effect? kind (m.entity object) f with
    | none => return []
    | some (.ink ..) => exactMoved x y f.pivotX f.pivotY
    | some (.flip ..) => exactMoved x y f.pivotX f.pivotY
    | some _ => return [{ x, y, pivot := some (pivotX, pivotY) }]

/-- The animation frame that an entity shows. -/
def exactAnimation (m : Machine) (e : Entity) (x y : Int) : Exact (List Placed) :=
  match animationFrame? m e with
  | some f => exactMoved x y f.pivotX f.pivotY
  | none => return []

/-! ### Numbers and titles -/

/-- The digit of a number at a place, if it is drawn. -/
def exactDigit (m : Machine) (object : Nat) (o : Operands) (place : Nat) (x : Int) : Exact (List Placed) :=
  if o[6] ≠ 0 || reaches o[3].toInt place then do
    let number ← result (o[0].toInt + digit o[3].toInt place)
    exactSprite m object number x o[2].toInt
  else return []

/-- So many digits of a number from a place on, the first at `x`. The next one is behind each of them, drawn
or not. -/
def exactDigits (m : Machine) (object : Nat) (o : Operands) :
    (left place : Nat) → (x : Int) → Exact (List Placed)
  | 0, _, _ => return []
  | left + 1, place, x => do
    let here ← exactDigit m object o place x
    let next ← result (x - o[5].toInt)
    let others ← exactDigits m object o left (place + 1) next
    return here ++ others

/-- How far a character moves the next one. -/
def exactAdvance (m : Machine) (object : Nat) (l : Lettering) (c : Char) : Exact Int :=
  match glyph? c with
  | none => result (l.spaceWidth.toInt + l.spacing.toInt)
  | some g => do
    let number ← result (l.first.toInt + g.toInt)
    match frameAt? m object number with
    | some f => result (f.width.toInt + l.spacing.toInt)
    | none => result (l.spaceWidth.toInt + l.spacing.toInt)

/-- Where the character behind one at `x` begins. -/
def exactNext (m : Machine) (object : Nat) (l : Lettering) (x : Int) (c : Char) : Exact Int := do
  let advance ← exactAdvance m object l c
  result (x + advance)

/-- Where the character behind a text begins, which itself begins at `x`. -/
def exactEnd (m : Machine) (object : Nat) (l : Lettering) : Int → Text → Exact Int
  | x, [] => return x
  | x, c :: rest => do
    let next ← exactNext m object l x c
    exactEnd m object l next rest

/-- The sprite of a character. -/
def exactLetter (m : Machine) (object : Nat) (l : Lettering) (x : Int) (c : Char) : Exact (List Placed) :=
  match glyph? c with
  | none => return []
  | some g => do
    let number ← result (l.first.toInt + g.toInt)
    exactSprite m object number x l.y.toInt

/-- Characters from a point on. -/
def exactLetters (m : Machine) (object : Nat) (l : Lettering) : Int → Text → Exact (List Placed)
  | _, [] => return []
  | x, c :: rest => do
    let here ← exactLetter m object l x c
    let next ← exactNext m object l x c
    let others ← exactLetters m object l next rest
    return here ++ others

/-- Where the title card begins. -/
def exactStart (o : Operands) (width : Int) : Exact Int :=
  if o[3] = 1 then result (o[1].toInt - width)
  else if o[3] = 2 then result (o[1].toInt - width.tdiv 2)
  else return o[1].toInt

/-- The title card. -/
def exactTitle (m : Machine) (object : Nat) (o : Operands) : Exact (List Placed) := do
  let l : Lettering := ⟨o[0], o[2], o[5], o[6]⟩
  let text := titleText m.scene.stage.titleCard.toList o[4]
  let width ← exactEnd m object l 0 text
  let x ← exactStart o width
  exactLetters m object l x text

/-! ### Instructions -/

/-- **Where a drawing instruction places its sprites**, computed with whole numbers. -/
def exactly (m : Machine) (object : Nat) (op : Drawing) : Exact (List Placed) :=
  let o := m.registers.operands
  match op with
  | .sprite => do
    let e := m.entity object
    let (x, y) ← m.scene.screen.exactPlace e.xPos e.yPos
    exactSprite m object o[0].toInt x y
  | .spriteXY => do
    let (x, y) ← m.scene.screen.exactPlace o[1] o[2]
    exactSprite m object o[0].toInt x y
  | .spriteScreenXY => exactSprite m object o[0].toInt o[1].toInt o[2].toInt
  | .spriteFX => do
    let (x, y) ← m.scene.screen.exactPlace o[2] o[3]
    exactSpriteEffect m object o[0].toInt o[1] x y
  | .spriteScreenFX => exactSpriteEffect m object o[0].toInt o[1] o[2].toInt o[3].toInt
  | .numbers => exactDigits m object o (min (o[4].index?.getD 0) digitLimit) 0 o[1].toInt
  | .actName => exactTitle m object o
  | .objectAnimation => do
    let e := m.entity object
    let (x, y) ← m.scene.screen.exactPlace e.xPos e.yPos
    exactAnimation m e x y
  | .playerAnimation => do
    let player := m.scene.activePlayer
    if player.visible = 0 then return []
    else
      let (x, y) ← m.scene.screen.exactPlace player.xPos player.yPos
      exactAnimation m m.scene.playerEntity x y
  | .tintRect => return []
  | .rect => return []
  | .lifeIcon => return []
  | .text => return []
  | .scene3D => return []
  | .clearScreen => return []
  | .screenFade => return []

end Drawing

/-! ## Runs -/

/-- Whether what reading a variable computes fits: coordinates go only into whether an entity is out of
bounds. -/
def Variable.readFits (s : Scene) (index : Word) : Variable → Bool
  | .objectOutOfBounds =>
    match Machine.slot? index with
    | some k => decide (s.exactBounds (s.entities.get k) true).Fits
    | none => true
  | _ => true

/-- Whether what the operand at an offset asks for fits. -/
def operandFits (code : Array Word) (object start : Nat) (m : Machine) : Bool :=
  match Argument.decode code start with
  | .ok (.element v _, _) =>
    match elementIndex code object start (start + 1) m with
    | (.ok (index, _), _) => v.readFits m.scene index
    | (.error _, _) => true
  | _ => true

/-- Whether what operands ask for fits, which are loaded one after the other. -/
def operandsFit (code : Array Word) (object : Nat) : (count place offset : Nat) → Machine → Bool
  | 0, _, _, _ => true
  | count + 1, place, offset, m =>
    operandFits code object offset m &&
      match walkOperand .load code object place offset m with
      | (.ok next, m) => operandsFit code object count (place + 1) next m
      | (.error _, _) => true

/-- Whether what an instruction computes fits once its operands have been loaded. -/
def Opcode.fits (m : Machine) (object : Nat) : Opcode → Bool
  | .draw op => decide (op.exactly m object).Fits
  | _ => true

/-- **What a step computes fits**, as far as it gets before a fault. -/
def stepFits (p : Program) (activation : Activation) (here : Position) (m : Machine) : Bool :=
  match Instruction.decodeOpcode p.code here.pointer with
  | .error _ => true
  | .ok (opcode, first) =>
    operandsFit p.code activation.object opcode.arity 0 first m &&
      match walkOperands .load p.code activation.object opcode.arity 0 first m with
      | (.ok _, m) => opcode.fits m activation.object
      | (.error _, _) => true

/-- **What a run computes fits**, within `fuel` steps. -/
def runFits (p : Program) (activation : Activation) : (fuel : Nat) → Position → Machine → Bool
  | 0, _, _ => true
  | fuel + 1, here, m =>
    stepFits p activation here m &&
      match step p activation here m with
      | (.ok (some next), m) => runFits p activation fuel next m
      | _ => true

end StageScript
