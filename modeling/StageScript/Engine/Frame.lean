import StageScript.Engine.Basic

/-! # Frames
* `Engine.processScript` runs a sub-script of an entity;
* `Engine.setupObjects` runs the startup sub-script of each type, which fills the type's part of the
  list of sprite frames;
* `Engine.processObjects`, `Engine.drawLayer` and `Engine.runFrame` are the work of a frame. -/

namespace StageScript

namespace Engine

/-! ## Sub-scripts -/

/-- The entry point of an entity's sub-script. -/
def entryPoint? (g : Engine) (object : Nat) (sub : SubScript) : Option EntryPoint := do
  let slot ← Scene.entitySlot? object
  g.program.entryPoint? (g.machine.scene.entities.get slot).typeId.toNat sub

/-- Runs a body for an object, with the whole budget of steps. -/
def runBody (activation : Activation) (entry : EntryPoint) : Act Unit := do
  let ⟨config, program, machine, error⟩ ← get
  let (answer, machine) := StageScript.run program activation entry { machine with steps := 0 }
  set (⟨config, program, machine, error⟩ : Engine)
  match answer with
  | .ok () => return
  | .error fault => fail (.runtime fault)

/-- Runs a sub-script of an entity. Nothing happens where its type has none. -/
def processScript (object : Nat) (sub : SubScript) : Act Unit := do
  match (← get).entryPoint? object sub with
  | some entry => runBody ⟨object, sub⟩ entry
  | none => return

/-- Runs the sub-script of an entity for what players do to it. -/
def processPlayerInteraction (object : Nat) : Act Unit := processScript object .playerInteraction

/-! ## Startup -/

/-- The slot that is lent to the type that starts up. -/
def scratchSlot : Fin entityCount := ⟨entityCount - 1, by decide⟩

/-- Begins a type's part of the list of sprite frames at the end of the list. -/
def openFrames (type : Nat) (g : Engine) : Engine :=
  g.modifyMachine fun m => m.modifyType (UInt8.ofNat type) fun t =>
    { t with frameListOffset := m.scene.spriteFrames.size, frameCount := 0 }

/-- Lets a type start up. -/
def setupType (type : Nat) : Act Unit := do
  modify (openFrames type)
  if ((← get).program.entryPoint? type .startup).isSome then
    modify fun g => g.modifyScene fun s =>
      s.modifyEntity scratchSlot fun e => { e with typeId := UInt8.ofNat type }
    processScript scratchSlot.val .startup

/-- Lets the registered types start up, in order. -/
def setupTypes : Act Unit := do
  (List.range' 1 ((← get).program.typeNames.size - 1)).forM setupType

/-- Lets the registered types start up with an empty list of sprite frames. The slot that is lent to
them is afterwards as it was. -/
def setupObjects : Act Unit := fun g =>
  let saved := g.machine.scene.entities.get scratchSlot
  let (answer, g) := setupTypes (g.modifyScene ({ · with spriteFrames := #[] }))
  (answer, g.modifyScene fun s => s.modifyEntity scratchSlot fun _ => saved)

/-! ## Frames -/

/-- When an entity is active, by its priority. -/
def isActive (s : Scene) (e : Entity) : Bool :=
  match e.priority.toNat with
  | 0 => s.inBounds e
  | 1 => true
  | 2 => true
  | 3 => s.inHorizontalBounds e
  | 4 => s.inBounds e
  | _ => false

/-- Whether an entity is taken off the list when it leaves the active area. -/
def isRemovedOutside (e : Entity) : Bool := e.priority = 4

/-- Puts an entity on the draw list of its draw order, if there is one. -/
def addToDrawList (slot : Fin entityCount) (s : Scene) : Scene :=
  let order := (s.entities.get slot).drawOrder.toNat
  match Indexed.place? drawListCount order with
  | some k => { s with drawLists := Indexed.put s.drawLists k ((s.drawLists.get k).push slot.val) }
  | none => s

/-- Gives an entity its turn: its main sub-script and a place on a draw list, if it is active. -/
def processObject (slot : Fin entityCount) : Act Unit := do
  let s := (← get).machine.scene
  let e := s.entities.get slot
  if isActive s e then
    if e.typeId ≠ 0 then
      processScript slot.val .main
      modify fun g => g.modifyScene (addToDrawList slot)
  else if isRemovedOutside e then
    modify fun g => g.modifyScene fun s => s.modifyEntity slot fun e => { e with typeId := 0 }

/-- Gives every entity its turn. The draw lists are made anew. -/
def processObjects : Act Unit := do
  modify fun g => g.modifyScene ({ · with drawLists := Vector.replicate drawListCount #[] })
  (List.finRange entityCount).forM processObject

/-- Runs the draw sub-script of an entity that is in play. -/
def drawObject (object : Nat) : Act Unit := do
  if (← get).machine.objectType object ≠ 0 then processScript object .draw

/-- Runs the draw sub-scripts of the entities on a draw list. -/
def drawLayer (layer : Nat) : Act Unit := do
  match (← get).machine.scene.drawLists[layer]? with
  | some list => list.toList.forM drawObject
  | none => return

/-- One frame: every entity's turn, then the draw lists in order. -/
def runFrame : Act Unit := do
  processObjects
  (List.range drawListCount).forM drawLayer

end Engine

end StageScript
