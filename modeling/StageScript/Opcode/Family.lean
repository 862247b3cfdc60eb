import StageScript.Opcode.Arithmetic

/-! # Families of opcodes
Opcodes come in families, one per part of the game that they act on. Each family has a signature
function, which gives every opcode its script name and its operand count. -/

namespace StageScript

/-- What a script has to write to call an opcode. -/
structure Signature where
  /-- The opcode's name in scripts. -/
  name : String
  /-- How many operands a call takes. -/
  arity : Nat
  deriving DecidableEq, Repr

/-- The signature of each opcode of the family. -/
def Binary.signature : Binary → Signature
  | .assign => ⟨"Equal", 2⟩
  | .add => ⟨"Add", 2⟩
  | .sub => ⟨"Sub", 2⟩
  | .mul => ⟨"Mul", 2⟩
  | .div => ⟨"Div", 2⟩
  | .shiftRight => ⟨"ShR", 2⟩
  | .shiftLeft => ⟨"ShL", 2⟩
  | .and => ⟨"And", 2⟩
  | .or => ⟨"Or", 2⟩
  | .xor => ⟨"Xor", 2⟩
  | .mod => ⟨"Mod", 2⟩

/-- The signature of each opcode of the family. -/
def Unary.signature : Unary → Signature
  | .inc => ⟨"Inc", 1⟩
  | .dec => ⟨"Dec", 1⟩
  | .flipSign => ⟨"FlipSign", 1⟩
  | .not => ⟨"Not", 1⟩

/-- The signature of each opcode of the family. -/
def Check.signature : Check → Signature
  | .equal => ⟨"CheckEqual", 2⟩
  | .greater => ⟨"CheckGreater", 2⟩
  | .lower => ⟨"CheckLower", 2⟩
  | .notEqual => ⟨"CheckNotEqual", 2⟩

/-- The signature of the test that opens an `if`: its jump slot and the two values. -/
def Comparison.ifSignature : Comparison → Signature
  | .equal => ⟨"IfEqual", 3⟩
  | .greater => ⟨"IfGreater", 3⟩
  | .greaterOrEqual => ⟨"IfGreaterOrEqual", 3⟩
  | .lower => ⟨"IfLower", 3⟩
  | .lowerOrEqual => ⟨"IfLowerOrEqual", 3⟩
  | .notEqual => ⟨"IfNotEqual", 3⟩

/-- The signature of the test that opens a `while`: its jump slot and the two values. -/
def Comparison.whileSignature : Comparison → Signature
  | .equal => ⟨"WEqual", 3⟩
  | .greater => ⟨"WGreater", 3⟩
  | .greaterOrEqual => ⟨"WGreaterOrEqual", 3⟩
  | .lower => ⟨"WLower", 3⟩
  | .lowerOrEqual => ⟨"WLowerOrEqual", 3⟩
  | .notEqual => ⟨"WNotEqual", 3⟩

/-- The instructions that steer a body beside the tests of `if` and `while`. -/
inductive Control
  | stop
  | elseBranch
  | endIf
  | loop
  | switch
  | leave
  | endSwitch
  | callFunction
  | endFunction
  deriving DecidableEq, Repr

/-- The signature of each opcode of the family. -/
def Control.signature : Control → Signature
  | .stop => ⟨"End", 0⟩
  | .elseBranch => ⟨"else", 0⟩
  | .endIf => ⟨"endif", 0⟩
  | .loop => ⟨"loop", 0⟩
  | .switch => ⟨"switch", 2⟩
  | .leave => ⟨"break", 0⟩
  | .endSwitch => ⟨"endswitch", 0⟩
  | .callFunction => ⟨"CallFunction", 1⟩
  | .endFunction => ⟨"EndFunction", 0⟩

/-- The instructions that compute new operands from their operands alone. -/
inductive Formula
  | sin
  | cos
  | sin256
  | cos256
  | sinChange
  | cosChange
  | aTan2
  | interpolate
  | interpolateXY
  | getBit
  | setBit
  deriving DecidableEq, Repr

/-- The signature of each opcode of the family. -/
def Formula.signature : Formula → Signature
  | .sin => ⟨"Sin", 2⟩
  | .cos => ⟨"Cos", 2⟩
  | .sin256 => ⟨"Sin256", 2⟩
  | .cos256 => ⟨"Cos256", 2⟩
  | .sinChange => ⟨"SinChange", 5⟩
  | .cosChange => ⟨"CosChange", 5⟩
  | .aTan2 => ⟨"ATan2", 3⟩
  | .interpolate => ⟨"Interpolate", 4⟩
  | .interpolateXY => ⟨"InterpolateXY", 7⟩
  | .getBit => ⟨"GetBit", 3⟩
  | .setBit => ⟨"SetBit", 3⟩

/-- The instructions that put something on the screen. -/
inductive Drawing
  | sprite
  | spriteXY
  | spriteScreenXY
  | spriteFX
  | spriteScreenFX
  | tintRect
  | rect
  | numbers
  | actName
  | lifeIcon
  | text
  | objectAnimation
  | playerAnimation
  | scene3D
  | clearScreen
  | screenFade
  deriving DecidableEq, Repr

/-- The signature of each opcode of the family. -/
def Drawing.signature : Drawing → Signature
  | .sprite => ⟨"DrawSprite", 1⟩
  | .spriteXY => ⟨"DrawSpriteXY", 3⟩
  | .spriteScreenXY => ⟨"DrawSpriteScreenXY", 3⟩
  | .spriteFX => ⟨"DrawSpriteFX", 4⟩
  | .spriteScreenFX => ⟨"DrawSpriteScreenFX", 4⟩
  | .tintRect => ⟨"DrawTintRect", 4⟩
  | .rect => ⟨"DrawRect", 8⟩
  | .numbers => ⟨"DrawNumbers", 7⟩
  | .actName => ⟨"DrawActName", 7⟩
  | .lifeIcon => ⟨"DrawLifeIcon", 3⟩
  | .text => ⟨"DrawText", 7⟩
  | .objectAnimation => ⟨"DrawObjectAnimation", 0⟩
  | .playerAnimation => ⟨"DrawPlayerAnimation", 0⟩
  | .scene3D => ⟨"Draw3DScene", 0⟩
  | .clearScreen => ⟨"ClearScreen", 1⟩
  | .screenFade => ⟨"SetScreenFade", 4⟩

/-- The instructions on colour palettes. -/
inductive Palette
  | load
  | rotate
  | setActive
  | setFade
  | copy
  deriving DecidableEq, Repr

/-- The signature of each opcode of the family. -/
def Palette.signature : Palette → Signature
  | .load => ⟨"LoadPalette", 5⟩
  | .rotate => ⟨"RotatePalette", 3⟩
  | .setActive => ⟨"SetActivePalette", 3⟩
  | .setFade => ⟨"SetPaletteFade", 7⟩
  | .copy => ⟨"CopyPalette", 2⟩

/-- The instructions on music and sound effects. -/
inductive Audio
  | setMusicTrack
  | playMusic
  | stopMusic
  | pauseMusic
  | resumeMusic
  | playSfx
  | stopSfx
  | setSfxAttributes
  | playStageSfx
  | stopStageSfx
  deriving DecidableEq, Repr

/-- The signature of each opcode of the family. -/
def Audio.signature : Audio → Signature
  | .setMusicTrack => ⟨"SetMusicTrack", 3⟩
  | .playMusic => ⟨"PlayMusic", 1⟩
  | .stopMusic => ⟨"StopMusic", 0⟩
  | .pauseMusic => ⟨"PauseMusic", 0⟩
  | .resumeMusic => ⟨"ResumeMusic", 0⟩
  | .playSfx => ⟨"PlaySfx", 2⟩
  | .stopSfx => ⟨"StopSfx", 1⟩
  | .setSfxAttributes => ⟨"SetSfxAttributes", 3⟩
  | .playStageSfx => ⟨"PlayStageSfx", 2⟩
  | .stopStageSfx => ⟨"StopStageSfx", 1⟩

/-- The instructions that reach services of the platform. -/
inductive Platform
  | loadStage
  | loadVideo
  | nextVideoFrame
  | loadFont
  | setAchievement
  | setLeaderboard
  | loadOnlineMenu
  | engineCallback
  | hapticEffect
  | readSave
  | writeSave
  deriving DecidableEq, Repr

/-- The signature of each opcode of the family. -/
def Platform.signature : Platform → Signature
  | .loadStage => ⟨"LoadStage", 0⟩
  | .loadVideo => ⟨"LoadVideo", 1⟩
  | .nextVideoFrame => ⟨"NextVideoFrame", 0⟩
  | .loadFont => ⟨"LoadFontFile", 1⟩
  | .setAchievement => ⟨"SetAchievement", 2⟩
  | .setLeaderboard => ⟨"SetLeaderboard", 2⟩
  | .loadOnlineMenu => ⟨"LoadOnlineMenu", 1⟩
  | .engineCallback => ⟨"EngineCallback", 1⟩
  | .hapticEffect => ⟨"HapticEffect", 4⟩
  | .readSave => ⟨"ReadSaveRAM", 0⟩
  | .writeSave => ⟨"WriteSaveRAM", 0⟩

/-- The instructions on sprite sheets and the frames cut out of them. -/
inductive Sheet
  | load
  | remove
  | addFrame
  | editFrame
  deriving DecidableEq, Repr

/-- The signature of each opcode of the family. -/
def Sheet.signature : Sheet → Signature
  | .load => ⟨"LoadSpriteSheet", 1⟩
  | .remove => ⟨"RemoveSpriteSheet", 1⟩
  | .addFrame => ⟨"SpriteFrame", 6⟩
  | .editFrame => ⟨"EditFrame", 7⟩

/-- The instructions on animation files. -/
inductive AnimationOp
  | load
  | process
  | getByName
  deriving DecidableEq, Repr

/-- The signature of each opcode of the family. -/
def AnimationOp.signature : AnimationOp → Signature
  | .load => ⟨"LoadAnimation", 1⟩
  | .process => ⟨"ProcessAnimation", 0⟩
  | .getByName => ⟨"GetAnimationByName", 2⟩

/-- The instructions on text menus. -/
inductive MenuOp
  | setup
  | addEntry
  | editEntry
  | loadText
  | getInfo
  | addVersion
  deriving DecidableEq, Repr

/-- The signature of each opcode of the family. -/
def MenuOp.signature : MenuOp → Signature
  | .setup => ⟨"SetupMenu", 4⟩
  | .addEntry => ⟨"AddMenuEntry", 3⟩
  | .editEntry => ⟨"EditMenuEntry", 4⟩
  | .loadText => ⟨"LoadTextFile", 3⟩
  | .getInfo => ⟨"GetTextInfo", 5⟩
  | .addVersion => ⟨"GetVersionNumber", 2⟩

/-- The instructions on entities, players and what they touch. -/
inductive ObjectOp
  | reset
  | createTemp
  | bindPlayer
  | playerCollision
  | playerTiles
  | playerControl
  | tileCollision
  | tileGrip
  | checkTouch
  deriving DecidableEq, Repr

/-- The signature of each opcode of the family. -/
def ObjectOp.signature : ObjectOp → Signature
  | .reset => ⟨"ResetObjectEntity", 5⟩
  | .createTemp => ⟨"CreateTempObject", 4⟩
  | .bindPlayer => ⟨"BindPlayerToObject", 2⟩
  | .playerCollision => ⟨"PlayerObjectCollision", 5⟩
  | .playerTiles => ⟨"PlayerTileCollision", 0⟩
  | .playerControl => ⟨"ProcessPlayerControl", 0⟩
  | .tileCollision => ⟨"ObjectTileCollision", 4⟩
  | .tileGrip => ⟨"ObjectTileGrip", 4⟩
  | .checkTouch => ⟨"CheckTouchRect", 4⟩

/-- The instructions on matrices and vertices. -/
inductive Space
  | setIdentity
  | multiply
  | translate
  | scale
  | rotateX
  | rotateY
  | rotateZ
  | rotateXYZ
  | transformVertices
  deriving DecidableEq, Repr

/-- The signature of each opcode of the family. -/
def Space.signature : Space → Signature
  | .setIdentity => ⟨"SetIdentityMatrix", 1⟩
  | .multiply => ⟨"MatrixMultiply", 2⟩
  | .translate => ⟨"MatrixTranslateXYZ", 4⟩
  | .scale => ⟨"MatrixScaleXYZ", 4⟩
  | .rotateX => ⟨"MatrixRotateX", 2⟩
  | .rotateY => ⟨"MatrixRotateY", 2⟩
  | .rotateZ => ⟨"MatrixRotateZ", 2⟩
  | .rotateXYZ => ⟨"MatrixRotateXYZ", 4⟩
  | .transformVertices => ⟨"TransformVertices", 3⟩

/-- The instructions on tile layers and their tiles. -/
inductive LayerOp
  | setDeformation
  | getTile
  | setTile
  | getTileInfo
  | copyTile
  | setTileInfo
  deriving DecidableEq, Repr

/-- The signature of each opcode of the family. -/
def LayerOp.signature : LayerOp → Signature
  | .setDeformation => ⟨"SetLayerDeformation", 6⟩
  | .getTile => ⟨"GetTileLayerEntry", 4⟩
  | .setTile => ⟨"SetTileLayerEntry", 4⟩
  | .getTileInfo => ⟨"Get16x16TileInfo", 4⟩
  | .copyTile => ⟨"Copy16x16Tile", 2⟩
  | .setTileInfo => ⟨"Set16x16TileInfo", 4⟩

/-- The instructions on draw lists. -/
inductive DrawListOp
  | clear
  | add
  | get
  | set
  deriving DecidableEq, Repr

/-- The signature of each opcode of the family. -/
def DrawListOp.signature : DrawListOp → Signature
  | .clear => ⟨"ClearDrawList", 1⟩
  | .add => ⟨"AddDrawListEntityRef", 2⟩
  | .get => ⟨"GetDrawListEntityRef", 3⟩
  | .set => ⟨"SetDrawListEntityRef", 3⟩

end StageScript
