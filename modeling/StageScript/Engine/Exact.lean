import StageScript.Engine.Frame
import StageScript.Machine.Exact

/-! # Exact coordinates of a frame
Whether what the commands of an engine compute of coordinates fits.
* `Engine.scriptFits` is about a sub-script, and `Engine.setupFits` about startup;
* `Engine.objectsFit`, `Engine.layerFits` and `Engine.frameFits` are about the work of a frame. -/

namespace StageScript

namespace Engine

/-- Whether what a run of a body computes fits. -/
def bodyFits (activation : Activation) (entry : EntryPoint) (g : Engine) : Bool :=
  let m := { g.machine with branches := [], calls := [] }
  runFits g.program activation m.budget (.ofEntry entry) m

/-- Whether what a run of a sub-script computes fits. -/
def scriptFits (object : Nat) (sub : SubScript) (g : Engine) : Bool :=
  match g.entryPoint? object sub with
  | some entry => bodyFits ⟨object, sub⟩ entry g
  | none => true

/-- Whether what commands compute fits, which are performed one after the other until one fails. -/
def allFit {α : Type} (fits : α → Engine → Bool) (act : α → Act Unit) : List α → Engine → Bool
  | [], _ => true
  | a :: rest, g =>
    fits a g &&
      match act a g with
      | (.ok (), g) => allFit fits act rest g
      | (.error _, _) => true

/-- Whether what the startup of a type computes fits. -/
def typeFits (type : Nat) (g : Engine) : Bool :=
  let g := g.openFrames type
  if (g.program.entryPoint? type .startup).isSome then
    scriptFits scratchSlot.val .startup
      (g.modifyScene fun s => s.modifyEntity scratchSlot fun e => { e with typeId := UInt8.ofNat type })
  else true

/-- Whether what the startup of all types computes fits. -/
def setupFits (g : Engine) : Bool :=
  allFit typeFits setupType (List.range' 1 (g.program.typeNames.size - 1))
    (g.modifyScene ({ · with spriteFrames := #[] }))

/-- Whether an entity is active. -/
def exactlyActive (s : Scene) (e : Entity) : Exact Bool :=
  match e.priority.toNat with
  | 0 => s.exactBounds e true
  | 1 => return true
  | 2 => return true
  | 3 => s.exactBounds e false
  | 4 => s.exactBounds e true
  | _ => return false

/-- Whether what an entity's turn computes fits. -/
def turnFits (slot : Fin entityCount) (g : Engine) : Bool :=
  let s := g.machine.scene
  let e := s.entities.get slot
  decide (exactlyActive s e).Fits && (!isActive s e || e.typeId = 0 || scriptFits slot.val .main g)

/-- Whether what the turns of all entities compute fits. -/
def objectsFit (g : Engine) : Bool :=
  allFit turnFits processObject (List.finRange entityCount)
    (g.modifyScene ({ · with drawLists := Vector.replicate drawListCount #[] }))

/-- Whether what the draw sub-script of an entity computes fits. -/
def drawFits (object : Nat) (g : Engine) : Bool :=
  g.machine.objectType object = 0 || scriptFits object .draw g

/-- Whether what the draw sub-scripts of a list compute fits. -/
def layerFits (layer : Nat) (g : Engine) : Bool :=
  match g.machine.scene.drawLists[layer]? with
  | some list => allFit drawFits drawObject list.toList g
  | none => true

/-- Whether what a frame computes fits. -/
def frameFits (g : Engine) : Bool :=
  objectsFit g &&
    match processObjects g with
    | (.ok (), g) => allFit layerFits drawLayer (List.range drawListCount) g
    | (.error _, _) => true

end Engine

end StageScript
