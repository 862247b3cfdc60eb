import StageScript.Machine.Basic
import StageScript.Opcode.Basic

/-! # Animation instructions
Animation files are asked for once: a file that has been loaded before is found by its path. -/

namespace StageScript

namespace AnimationOp

/-- The number of a file that has been loaded, by its path without regard to ASCII case. -/
def loaded? (s : Scene) (path : String) : Option Nat :=
  s.animations.findIdx? fun file => Text.sameName file.path.toList path.toList

/-- A file as the answer to a path: it takes the path if it has none of its own. -/
def named (file : AnimationFile) (path : String) : AnimationFile :=
  if file.path.isEmpty then { file with path } else file

/-- The number of a file, which is asked for if it has not been loaded; there is none if the host
does not have it. -/
def obtain (m : Machine) (path : String) : Option Nat × Machine :=
  match loaded? m.scene path with
  | some k => (some k, m)
  | none =>
    let answer := m.host.animation m.history path
    let m := m.call (.loadAnimation path)
    match answer with
    | some file =>
      (some m.scene.animations.size,
        m.modifyScene fun s => { s with animations := s.animations.push (named file path) })
    | none => (none, m)

/-- Makes an animation file that of the running object's type. A file that the host does not have
changes nothing. -/
def loadFile (m : Machine) (run : Activation) : Machine :=
  match obtain m m.scriptText with
  | (some k, m) => m.modifyType (m.objectType run.object) fun t => { t with animation := some k }
  | (none, m) => m

/-- The animation file of the running object's type. -/
def file? (m : Machine) (run : Activation) : Option AnimationFile :=
  (m.typeData (m.objectType run.object)).animation.bind (m.scene.animations[·]?)

/-- Advances the running object's animation by one tick. -/
def advance (m : Machine) (run : Activation) : Machine :=
  match file? m run, Scene.entitySlot? run.object with
  | some file, some slot => m.modifyScene fun s => s.modifyEntity slot (·.animate file)
  | _, _ => m

/-- The number of an animation by its name, or zero. -/
def numberByName (m : Machine) (run : Activation) : Word :=
  Word.ofNat (((file? m run).bind fun file => file.index? m.scriptText.toList).getD 0)

/-- Carries out an animation instruction. -/
def perform (run : Activation) : AnimationOp → Exec Unit
  | .load => modify (loadFile · run)
  | .process => modify (advance · run)
  | .getByName => modify fun m => m.setOperand 0 (numberByName m run)

end AnimationOp

end StageScript
