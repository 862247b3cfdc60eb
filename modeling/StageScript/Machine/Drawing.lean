import StageScript.Machine.Basic
import StageScript.Opcode.Basic

/-! # Drawing instructions
What an instruction puts on the screen, as a list of commands.
* `Drawing.sprite?` and `Drawing.spriteEffect?` draw a sprite frame of the running object's type, the
  second with an effect; a frame that the type does not have is not drawn;
* `Drawing.digits` draws the digits of a number, and `Drawing.title` the letters of a title card;
* `Drawing.commands` gives the commands of every instruction. -/

namespace StageScript

/-- Where a point of the stage lies on the screen. -/
def Screen.place (s : Screen) (x y : Word) : Word × Word :=
  (x.whole - s.xOffset, y.whole - s.yOffset)

namespace Drawing

/-! ## Sprite frames -/

/-- A sprite frame of the running object's type. -/
def frame? (m : Machine) (object : Nat) (number : Word) : Option SpriteFrame := do
  let first := (m.typeData (m.objectType object)).frameListOffset
  m.scene.spriteFrames[first + (← number.index?)]?

/-- The sprite of a frame at a point. -/
def spriteOf (m : Machine) (object : Nat) (f : SpriteFrame) (x y : Word) : SpriteDraw where
  x := x
  y := y
  width := f.width
  height := f.height
  spriteX := f.spriteX
  spriteY := f.spriteY
  sheet := (m.typeData (m.objectType object)).spriteSheet

/-- Draws a sprite frame with its pivot at a point. -/
def sprite? (m : Machine) (object : Nat) (number x y : Word) : Option DrawCommand :=
  (frame? m object number).map fun f =>
    .sprite none (spriteOf m object f (x + f.pivotX) (y + f.pivotY))

/-- The effect of a kind on an entity's sprite. -/
def effect? (kind : Word) (e : Entity) (f : SpriteFrame) : Option SpriteEffect :=
  let direction := Word.ofByte e.direction
  match kind.toInt with
  | 0 => some (.scale direction (-f.pivotX) (-f.pivotY) e.scale e.scale)
  | 1 => some (.rotate direction (-f.pivotX) (-f.pivotY) e.rotation)
  | 2 => some (.rotoZoom direction (-f.pivotX) (-f.pivotY) e.rotation e.scale)
  | 3 => some (.ink (Word.ofByte e.inkEffect) (Word.ofByte e.alpha))
  | 5 => some (.flip direction)
  | _ => none

/-- Where a sprite with an effect is drawn: an effect that knows the pivot moves the sprite itself. -/
def effectPlace (effect : SpriteEffect) (f : SpriteFrame) (x y : Word) : Word × Word :=
  match effect with
  | .scale .. => (x, y)
  | .rotate .. => (x, y)
  | .rotoZoom .. => (x, y)
  | .ink .. => (x + f.pivotX, y + f.pivotY)
  | .flip .. => (x + f.pivotX, y + f.pivotY)

/-- Draws a sprite frame with an effect. A kind of effect that does not exist draws nothing. -/
def spriteEffect? (m : Machine) (object : Nat) (number kind x y : Word) : Option DrawCommand := do
  let f ← frame? m object number
  let effect ← effect? kind (m.entity object) f
  let (x, y) := effectPlace effect f x y
  return .sprite (some effect) (spriteOf m object f x y)

/-! ## Animation frames -/

/-- The animation frame that an entity shows. -/
def animationFrame? (m : Machine) (e : Entity) : Option AnimationFrame := do
  let file ← m.scene.animations[← (m.typeData e.typeId).animation]?
  file.frame? e.animation.toNat e.frame.toNat

/-- Draws the animation frame that an entity shows, flipped if the entity looks to the other side. -/
def animation? (m : Machine) (e : Entity) (x y : Word) : Option DrawCommand :=
  (animationFrame? m e).map fun f =>
    .sprite (if e.direction = 0 then none else some (.flip (Word.ofByte e.direction)))
      { x := x + f.pivotX
        y := y + f.pivotY
        width := f.width
        height := f.height
        spriteX := f.spriteX
        spriteY := f.spriteY
        sheet := f.sheet }

/-! ## Numbers -/

/-- The most digits of a number. -/
def digitLimit : Nat := 18

/-- The decimal digit of a number at a place counted from the right, with the number's sign. -/
def digit (value : Int) (place : Nat) : Int :=
  (value.tmod (Nat.pow 10 (place + 1))).tdiv (Nat.pow 10 place)

/-- Whether a number reaches a place, zero being one digit long. -/
def reaches (value : Int) (place : Nat) : Bool :=
  Nat.pow 10 (place + 1) ≤ if value = 0 then 10 else value * 10

/-- Draws a number from right to left. Leading zeros are left out unless all digits are wanted. -/
def digits (m : Machine) (object : Nat) (o : Operands) : List DrawCommand :=
  let value := o[3].toInt
  (List.range (min (o[4].index?.getD 0) digitLimit)).flatMap fun place =>
    if o[6] ≠ 0 || reaches value place then
      (sprite? m object (o[0] + Int32.ofInt (digit value place)) (o[1] - Word.ofNat place * o[5])
        o[2]).toList
    else []

/-! ## Title cards -/

/-- The number of the sprite frame for a character, counted from that of the letter A. -/
def glyph? (c : Char) : Option Word :=
  let upper := c.toUpper
  if 'A' ≤ upper && upper ≤ 'Z' then some (Word.ofNat (upper.toNat - 'A'.toNat))
  else if '0' ≤ c && c ≤ '9' then some (Word.ofNat (c.toNat - '0'.toNat + 26))
  else none

/-- How a text is set: its first sprite frame, its line, the width of a space and the gap between
characters. -/
structure Lettering where
  first : Word
  y : Word
  spaceWidth : Word
  spacing : Word

/-- How far a character moves the next one. What cannot be drawn is as wide as a space. -/
def advance (m : Machine) (object : Nat) (l : Lettering) (c : Char) : Word :=
  match (glyph? c).bind fun g => frame? m object (l.first + g) with
  | some f => f.width + l.spacing
  | none => l.spaceWidth + l.spacing

/-- Draws characters from a point on. -/
def letters (m : Machine) (object : Nat) (l : Lettering) : Word → Text → List DrawCommand
  | _, [] => []
  | x, c :: rest =>
    ((glyph? c).bind fun g => sprite? m object (l.first + g) x l.y).toList
      ++ letters m object l (x + advance m object l c) rest

/-- The words of a title, or the one that is asked for, counted from one. -/
def titleText (title : Text) (number : Word) : Text :=
  match number.index? with
  | some (k + 1) => ((Text.pieces ' ' title)[k]?).getD []
  | _ => title

/-- Draws the title card, aligned to the left, to the right or around the middle. -/
def title (m : Machine) (object : Nat) (o : Operands) : List DrawCommand :=
  let l : Lettering := ⟨o[0], o[2], o[5], o[6]⟩
  let text := titleText m.scene.stage.titleCard.toList o[4]
  let width := text.foldl (fun w c => w + advance m object l c) 0
  let x := if o[3] = 1 then o[1] - width else if o[3] = 2 then o[1] - width / 2 else o[1]
  letters m object l x text

/-! ## Menus -/

/-- The rows of a menu that are drawn: a positive count of them, or all, from a first one on. -/
def menuRows (menu : TextMenu) (start count : Word) : List String :=
  let rows := (menu.rows.toList.map (·.text)).drop (start.index?.getD 0)
  match count.index? with
  | some (k + 1) => rows.take (k + 1)
  | _ => rows

/-! ## Instructions -/

/-- What a drawing instruction of an object puts on the screen. -/
def commands (m : Machine) (object : Nat) (op : Drawing) : List DrawCommand :=
  let o := m.registers.operands
  match op with
  | .sprite =>
    let e := m.entity object
    let (x, y) := m.scene.screen.place e.xPos e.yPos
    (sprite? m object o[0] x y).toList
  | .spriteXY =>
    let (x, y) := m.scene.screen.place o[1] o[2]
    (sprite? m object o[0] x y).toList
  | .spriteScreenXY => (sprite? m object o[0] o[1] o[2]).toList
  | .spriteFX =>
    let (x, y) := m.scene.screen.place o[2] o[3]
    (spriteEffect? m object o[0] o[1] x y).toList
  | .spriteScreenFX => (spriteEffect? m object o[0] o[1] o[2] o[3]).toList
  | .tintRect => [.tintRect o[0] o[1] o[2] o[3]]
  | .rect => [.rect o[0] o[1] o[2] o[3] o[4] o[5] o[6] o[7]]
  | .numbers => digits m object o
  | .actName => title m object o
  | .lifeIcon => [.lifeIcon o[0] o[1] o[2]]
  | .text =>
    let rows := (o[0].index?.bind (m.scene.menus[·]?)).elim [] (menuRows · o[5] o[6])
    [.text o[1] o[2] o[3] o[4] rows]
  | .objectAnimation =>
    let e := m.entity object
    let (x, y) := m.scene.screen.place e.xPos e.yPos
    (animation? m e x y).toList
  | .playerAnimation =>
    let player := m.scene.activePlayer
    if player.visible = 0 then []
    else
      let (x, y) := m.scene.screen.place player.xPos player.yPos
      (animation? m m.scene.playerEntity x y).toList
  | .scene3D => [.scene3D m.scene.space.vertexCount m.scene.space.faceCount]
  | .clearScreen => [.clearScreen o[0]]
  | .screenFade => [.screenFade o[0] o[1] o[2] o[3]]

/-- Carries out a drawing instruction. -/
def perform (run : Activation) (op : Drawing) : Exec Unit :=
  modify fun m => (op.commands m run.object).foldl (fun m c => m.call (.draw c)) m

end Drawing

end StageScript
