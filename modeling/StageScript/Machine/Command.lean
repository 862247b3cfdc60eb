import StageScript.Machine.Basic
import StageScript.Opcode.Basic

/-! # Commands to the host
Instructions that pass their operands on to the host: palettes, sound and the platform.
`Palette.command`, `Audio.command` and `Platform.command?` say which command an instruction is; the
functions named `perform` issue it and keep the scene in step. -/

namespace StageScript

/-- Issues a command to the host. -/
def issue (c : HostCall) : Exec Unit := modify (·.call c)

namespace Palette

/-- The command of a palette instruction. -/
def command (o : Operands) (text : String) : Palette → PaletteCommand
  | .load => .load text o[1] o[2] o[3] o[4]
  | .rotate => .rotate o[0] o[1] (o[2] ≠ 0)
  | .setActive => .setActive o[0] o[1] o[2]
  | .setFade => .fade o[0] o[1] o[2] o[3] o[4] o[5]
  | .copy => .copy o[0] o[1]

/-- Carries out a palette instruction. -/
def perform (op : Palette) : Exec Unit :=
  modify fun m => m.call (.palette (op.command m.registers.operands m.scriptText))

end Palette

namespace Audio

/-- The command of a sound instruction. -/
def command (o : Operands) (text : String) : Audio → AudioCommand
  | .setMusicTrack => .setMusicTrack text o[1] o[2]
  | .playMusic => .playMusic o[0]
  | .stopMusic => .stopMusic
  | .pauseMusic => .pauseMusic
  | .resumeMusic => .resumeMusic
  | .playSfx => .playSfx o[0] (o[1] ≠ 0)
  | .stopSfx => .stopSfx o[0]
  | .setSfxAttributes => .setSfxAttributes o[0] o[1] o[2]
  | .playStageSfx => .playStageSfx o[0] (o[1] ≠ 0)
  | .stopStageSfx => .stopStageSfx o[0]

/-- The scene behind a sound instruction: it knows which track plays. -/
def scene (o : Operands) (s : Scene) : Audio → Scene
  | .playMusic => { s with music := { s.music with currentTrack := o[0] } }
  | _ => s

/-- Carries out a sound instruction. -/
def perform (op : Audio) : Exec Unit :=
  modify fun m =>
    let o := m.registers.operands
    (m.modifyScene (op.scene o)).call (.audio (op.command o m.scriptText))

end Audio

namespace Platform

/-- The command of a platform instruction; those on the save file are calls of their own. -/
def command? (o : Operands) (text : String) : Platform → Option PlatformCommand
  | .loadStage => some .loadStage
  | .loadVideo => some (.loadVideo text)
  | .nextVideoFrame => some .nextVideoFrame
  | .loadFont => some (.loadFont text)
  | .setAchievement => some (.setAchievement o[0] o[1])
  | .setLeaderboard => some (.setLeaderboard o[0] o[1])
  | .loadOnlineMenu => some (.loadOnlineMenu o[0])
  | .engineCallback => some (.engineCallback o[0])
  | .hapticEffect => some (.hapticEffect o[0] o[1] o[2] o[3])
  | .readSave => none
  | .writeSave => none

/-- Words with others laid over the first of them. -/
def overlay {n : Nat} (words : Vector Word n) (front : List Word) : Vector Word n :=
  Vector.ofFn fun i => front[i.val]?.getD (words.get i)

/-- Reads the save file; the answer says whether there is one. -/
def readSaveFile (m : Machine) : Machine :=
  let saved := m.host.saved m.history
  let m := m.call .readSave
  match saved with
  | some words =>
    (m.modifyScene fun s => { s with saveRam := overlay s.saveRam words }).answer 1
  | none => m.answer 0

/-- Writes the save file; the answer says whether it could be. -/
def writeSaveFile (m : Machine) : Machine :=
  let words := m.scene.saveRam
  let done := m.host.canSave m.history words
  (m.call (.writeSave words)).answer (Word.ofBool done)

/-- Carries out a platform instruction. -/
def perform (op : Platform) : Exec Unit :=
  modify fun m =>
    match op with
    | .readSave => readSaveFile m
    | .writeSave => writeSaveFile m
    | .loadStage =>
      (m.modifyScene fun s => { s with stage := { s.stage with loadRequested := true } }).call
        (.platform .loadStage)
    | _ =>
      match op.command? m.registers.operands m.scriptText with
      | some c => m.call (.platform c)
      | none => m

end Platform

end StageScript
