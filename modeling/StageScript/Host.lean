import StageScript.Scene.Basic

/-! # The host
What lies outside the machine: drawing, sound, palettes, collision, save files and the services of
the platform. Scripts reach it by calls.
* `HostCall` is a call with its operands; commands are calls that want no answer;
* `Host` gives the answers. An answer may depend on the calls made before, so that a host with a
  memory of its own is one, too. -/

namespace StageScript

/-! ## Commands -/

/-- A rectangle of a sheet, and where it goes on the screen. -/
structure SpriteDraw where
  x : Word
  y : Word
  width : Word
  height : Word
  spriteX : Word
  spriteY : Word
  sheet : Word
  deriving DecidableEq, Repr

/-- What is done to a sprite that is drawn. -/
inductive SpriteEffect
  | scale (direction pivotX pivotY scaleX scaleY : Word)
  | rotate (direction pivotX pivotY rotation : Word)
  | rotoZoom (direction pivotX pivotY rotation scale : Word)
  | ink (effect alpha : Word)
  | flip (direction : Word)
  deriving DecidableEq, Repr

/-- Something to put on the screen. -/
inductive DrawCommand
  | sprite (effect : Option SpriteEffect) (sprite : SpriteDraw)
  | rect (x y width height r g b alpha : Word)
  | tintRect (x y width height : Word)
  | lifeIcon (x y player : Word)
  | text (x y scale spacing : Word) (rows : List String)
  | scene3D (vertexCount faceCount : Word)
  | clearScreen (color : Word)
  | screenFade (r g b alpha : Word)
  deriving DecidableEq, Repr

/-- A change of the palettes. -/
inductive PaletteCommand
  | load (path : String) (bank dest start finish : Word)
  | rotate (start finish : Word) (right : Bool)
  | setActive (bank startLine finishLine : Word)
  | fade (dest sourceA sourceB blend start finish : Word)
  | copy (source dest : Word)
  deriving DecidableEq, Repr

/-- A change of what is heard. -/
inductive AudioCommand
  | setMusicTrack (path : String) (track loopPoint : Word)
  | playMusic (track : Word)
  | stopMusic
  | pauseMusic
  | resumeMusic
  | playSfx (sfx : Word) (looped : Bool)
  | stopSfx (sfx : Word)
  | setSfxAttributes (sfx loopCount pan : Word)
  | playStageSfx (sfx : Word) (looped : Bool)
  | stopStageSfx (sfx : Word)
  | musicVolume (volume : Word)
  | sfxVolume (volume : Word)
  | bgmVolume (volume : Word)
  deriving DecidableEq, Repr

/-- A use of the platform. -/
inductive PlatformCommand
  | loadStage
  | loadVideo (path : String)
  | nextVideoFrame
  | loadFont (path : String)
  | setAchievement (id status : Word)
  | setLeaderboard (id score : Word)
  | loadOnlineMenu (menu : Word)
  | engineCallback (callback : Word)
  | hapticEffect (id a b c : Word)
  | removeSheet (path : String)
  | copyTile (dest source : Word)
  | setTileInfo (tile info value extra : Word)
  deriving DecidableEq, Repr

/-! ## Questions -/

/-- Whether a player touches a box around an object. -/
structure ObjectCollision where
  kind : Word
  object : Nat
  player : Nat
  left : Word
  top : Word
  right : Word
  bottom : Word
  deriving DecidableEq, Repr

/-- Whether an object touches the tiles. -/
structure TileCollision where
  object : Nat
  side : Word
  xOffset : Word
  yOffset : Word
  plane : Word
  deriving DecidableEq, Repr

/-- A call of the host. -/
inductive HostCall
  | draw (command : DrawCommand)
  | palette (command : PaletteCommand)
  | audio (command : AudioCommand)
  | platform (command : PlatformCommand)
  | loadSheet (path : String)
  | loadAnimation (path : String)
  | loadText (path : String) (mapCode : Bool)
  | playerCollision (query : ObjectCollision)
  | playerTiles (player : Nat)
  | playerControl (player : Nat)
  | objectTiles (query : TileCollision)
  | objectGrip (query : TileCollision)
  | tileInfo (x y info : Word)
  | readSave
  | writeSave (words : Vector Word saveRamSize)
  deriving DecidableEq

/-- The calls of a host so far, in order. -/
abbrev History := Array HostCall

/-- The answers of a host, each given the calls before. -/
structure Host where
  /-- The number of a sprite sheet. -/
  sheet : History → String → Word := fun _ _ => 0
  /-- The animations of a file. -/
  animation : History → String → Option AnimationFile := fun _ _ => none
  /-- The lines of a text file. -/
  lines : History → String → Bool → Option (List String) := fun _ _ _ => none
  playerCollision : History → Scene → ObjectCollision → Word := fun _ _ _ => 0
  objectTiles : History → Scene → TileCollision → Word := fun _ _ _ => 0
  objectGrip : History → Scene → TileCollision → Word := fun _ _ _ => 0
  tileInfo : History → Word → Word → Word → Word := fun _ _ _ _ => 0
  /-- The words of the save file, which go over the first words that the scene has. -/
  saved : History → Option (List Word) := fun _ => none
  /-- Whether the save file can be written. -/
  canSave : History → Vector Word saveRamSize → Bool := fun _ _ => false

namespace Host

/-- The host with nothing behind it: every answer is zero or none. -/
def silent : Host := {}

/-- The paths of the sprite sheets that were asked for, each once, in the order of their first
appearance. -/
def sheets (history : History) : List String :=
  history.toList.foldl (fun paths call =>
    match call with
    | .loadSheet path => if path ∈ paths then paths else paths ++ [path]
    | _ => paths) []

/-- Numbers sprite sheets in the order in which they are first asked for. -/
def numberSheet (history : History) (path : String) : Word :=
  let paths := sheets history
  Word.ofNat ((paths.idxOf? path).getD paths.length)

end Host

end StageScript
