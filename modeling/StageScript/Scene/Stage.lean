import StageScript.Scene.Player

/-! # Stage, screen and engine
The records of which a scene has one each: the stage, the screen, the buttons, the music and the
engine's own settings, with the accessors through which scripts see them. -/

namespace StageScript

/-! ## Stage -/

/-- The state of the stage in play. -/
structure Stage where
  state : Word := 0
  activeList : Word := 0
  listPos : Word := 0
  timeEnabled : Word := 0
  milliseconds : Word := 0
  seconds : Word := 0
  minutes : Word := 0
  actNo : Word := 0
  pauseEnabled : Word := 0
  listSize : Word := 0
  newXBoundary1 : Word := 0
  newXBoundary2 : Word := 0
  newYBoundary1 : Word := 0
  newYBoundary2 : Word := 0
  xBoundary1 : Word := 0
  xBoundary2 : Word := 0
  yBoundary1 : Word := 0
  yBoundary2 : Word := 0
  waterLevel : Word := 0
  activeLayer : Word := 0
  midPoint : Word := 0
  playerListPos : Word := 0
  /-- The player that scripts mean by `Player`. -/
  activePlayer : Fin playerCount := firstPlayer
  debugMode : Word := 0
  /-- The name that the title card shows. -/
  titleCard : String := ""
  /-- Whether a script has asked for the stage to be loaded. -/
  loadRequested : Bool := false
  deriving DecidableEq, Repr

/-- How scripts see a field of the stage. -/
def StageField.accessor : StageField → Accessor Stage
  | .state => .word (·.state) fun s w => { s with state := w }
  | .activeList => .word (·.activeList) fun s w => { s with activeList := w }
  | .listPos => .word (·.listPos) fun s w => { s with listPos := w }
  | .timeEnabled => .word (·.timeEnabled) fun s w => { s with timeEnabled := w }
  | .milliSeconds => .word (·.milliseconds) fun s w => { s with milliseconds := w }
  | .seconds => .word (·.seconds) fun s w => { s with seconds := w }
  | .minutes => .word (·.minutes) fun s w => { s with minutes := w }
  | .actNo => .word (·.actNo) fun s w => { s with actNo := w }
  | .pauseEnabled => .word (·.pauseEnabled) fun s w => { s with pauseEnabled := w }
  | .listSize => .word (·.listSize) fun s w => { s with listSize := w }
  | .newXBoundary1 => .word (·.newXBoundary1) fun s w => { s with newXBoundary1 := w }
  | .newXBoundary2 => .word (·.newXBoundary2) fun s w => { s with newXBoundary2 := w }
  | .newYBoundary1 => .word (·.newYBoundary1) fun s w => { s with newYBoundary1 := w }
  | .newYBoundary2 => .word (·.newYBoundary2) fun s w => { s with newYBoundary2 := w }
  | .xBoundary1 => .word (·.xBoundary1) fun s w => { s with xBoundary1 := w }
  | .xBoundary2 => .word (·.xBoundary2) fun s w => { s with xBoundary2 := w }
  | .yBoundary1 => .word (·.yBoundary1) fun s w => { s with yBoundary1 := w }
  | .yBoundary2 => .word (·.yBoundary2) fun s w => { s with yBoundary2 := w }
  | .waterLevel => .word (·.waterLevel) fun s w => { s with waterLevel := w }
  | .activeLayer => .word (·.activeLayer) fun s w => { s with activeLayer := w }
  | .midPoint => .word (·.midPoint) fun s w => { s with midPoint := w }
  | .playerListPos => .word (·.playerListPos) fun s w => { s with playerListPos := w }
  | .debugMode => .word (·.debugMode) fun s w => { s with debugMode := w }

theorem StageField.lawful_accessor (field : StageField) : field.accessor.Lawful := by
  cases field <;> exact fun _ _ => rfl

/-! ## Screen -/

/-- The view of the stage. -/
structure Screen where
  cameraEnabled : Word := 0
  cameraTarget : Word := 0
  cameraStyle : Word := 0
  centerX : Word := 0
  centerY : Word := 0
  /-- The width, which scripts can only read. -/
  xSize : Word := 0
  /-- The height, which scripts can only read. -/
  ySize : Word := 0
  xOffset : Word := 0
  yOffset : Word := 0
  shakeX : Word := 0
  shakeY : Word := 0
  adjustCameraY : Word := 0
  deriving DecidableEq, Repr

/-- A view of a given size, centred. -/
def Screen.ofSize (width height : Word) : Screen :=
  { xSize := width, ySize := height, centerX := width / 2, centerY := height / 2 }

/-- How scripts see a field of the screen. -/
def ScreenField.accessor : ScreenField → Accessor Screen
  | .cameraEnabled => .word (·.cameraEnabled) fun s w => { s with cameraEnabled := w }
  | .cameraTarget => .word (·.cameraTarget) fun s w => { s with cameraTarget := w }
  | .cameraStyle => .word (·.cameraStyle) fun s w => { s with cameraStyle := w }
  | .centerX => .word (·.centerX) fun s w => { s with centerX := w }
  | .centerY => .word (·.centerY) fun s w => { s with centerY := w }
  | .xOffset => .word (·.xOffset) fun s w => { s with xOffset := w }
  | .yOffset => .word (·.yOffset) fun s w => { s with yOffset := w }
  | .shakeX => .word (·.shakeX) fun s w => { s with shakeX := w }
  | .shakeY => .word (·.shakeY) fun s w => { s with shakeY := w }
  | .adjustCameraY => .word (·.adjustCameraY) fun s w => { s with adjustCameraY := w }

theorem ScreenField.lawful_accessor (field : ScreenField) : field.accessor.Lawful := by
  cases field <;> exact fun _ _ => rfl

/-! ## Input and music -/

/-- The buttons of a game pad. -/
structure Buttons where
  up : Bool := false
  down : Bool := false
  left : Bool := false
  right : Bool := false
  buttonA : Bool := false
  buttonB : Bool := false
  buttonC : Bool := false
  start : Bool := false
  deriving DecidableEq, Repr

/-- Whether a button is down. -/
def Buttons.get (b : Buttons) : Button → Bool
  | .up => b.up
  | .down => b.down
  | .left => b.left
  | .right => b.right
  | .buttonA => b.buttonA
  | .buttonB => b.buttonB
  | .buttonC => b.buttonC
  | .start => b.start

/-- Moves a button. -/
def Buttons.set (b : Buttons) (button : Button) (down : Bool) : Buttons :=
  match button with
  | .up => { b with up := down }
  | .down => { b with down := down }
  | .left => { b with left := down }
  | .right => { b with right := down }
  | .buttonA => { b with buttonA := down }
  | .buttonB => { b with buttonB := down }
  | .buttonC => { b with buttonC := down }
  | .start => { b with start := down }

@[simp] theorem Buttons.get_set (b : Buttons) (button : Button) (down : Bool) :
    (b.set button down).get button = down := by
  cases button <;> rfl

/-- The game pad: the buttons that are held, and those that have just gone down. -/
structure Input where
  held : Buttons := {}
  pressed : Buttons := {}
  deriving DecidableEq, Repr

/-- The buttons of one kind. -/
def Input.get (i : Input) : Press → Buttons
  | .held => i.held
  | .pressed => i.pressed

/-- Changes the buttons of one kind. -/
def Input.set (i : Input) (press : Press) (buttons : Buttons) : Input :=
  match press with
  | .held => { i with held := buttons }
  | .pressed => { i with pressed := buttons }

/-- A finger on the touch screen. -/
structure TouchPoint where
  down : Bool := false
  x : Word := 0
  y : Word := 0
  deriving DecidableEq, Repr

/-- How scripts see a field of a touch. -/
def TouchField.get : TouchField → TouchPoint → Word
  | .down, t => Word.ofBool t.down
  | .xPos, t => t.x
  | .yPos, t => t.y

/-- The music that plays. -/
structure Music where
  volume : Word := 0
  currentTrack : Word := 0
  deriving DecidableEq, Repr

/-! ## Engine -/

/-- The engine's own settings. -/
structure EngineFlags where
  state : Word := 0
  message : Word := 0
  language : Word := 0
  onlineActive : Word := 0
  frameSkipTimer : Word := 0
  frameSkipSetting : Word := 0
  /-- The volume of sound effects. -/
  sfxVolume : Word := 0
  /-- The volume of background music. -/
  bgmVolume : Word := 0
  platformId : Word := 0
  trialMode : Word := 0
  hapticsEnabled : Word := 0
  version : String := ""
  deriving DecidableEq, Repr

/-- How scripts see a field of the engine. -/
def EngineField.accessor : EngineField → Accessor EngineFlags
  | .state => .word (·.state) fun e w => { e with state := w }
  | .language => .word (·.language) fun e w => { e with language := w }
  | .onlineActive => .word (·.onlineActive) fun e w => { e with onlineActive := w }
  | .frameSkipTimer => .word (·.frameSkipTimer) fun e w => { e with frameSkipTimer := w }
  | .frameSkipSetting => .word (·.frameSkipSetting) fun e w => { e with frameSkipSetting := w }
  | .platformID => .word (·.platformId) fun e w => { e with platformId := w }
  | .trialMode => .word (·.trialMode) fun e w => { e with trialMode := w }
  | .message => .word (·.message) fun e w => { e with message := w }
  | .hapticsEnabled => .word (·.hapticsEnabled) fun e w => { e with hapticsEnabled := w }

theorem EngineField.lawful_accessor (field : EngineField) : field.accessor.Lawful := by
  cases field <;> exact fun _ _ => rfl

end StageScript
