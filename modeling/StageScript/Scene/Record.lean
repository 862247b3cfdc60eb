import StageScript.Scene.Basic

/-! # Scenes as records
Every part of a scene as a JSON value whose fields are named, for those who look into a game from
outside.
* `Entity.toFields` names the parts of an entity, in the order in which they are shown;
* the functions named `toJson` give a part as a record. The large buffers are left out: they are
  lists of their own. -/

namespace StageScript

/-- A byte as a JSON value. -/
def Json.ofByte (b : UInt8) : Json := .ofNat b.toNat

/-- Words as a JSON value. -/
def Json.ofWords {n : Nat} (words : Vector Word n) : Json := .array (words.toList.map .ofWord)

/-! ## Entities and players -/

/-- The parts of an entity. -/
def Entity.toFields (e : Entity) : List (String × Json) :=
  [("x_pos", .ofWord e.xPos), ("y_pos", .ofWord e.yPos), ("values", .ofWords e.values),
    ("scale", .ofWord e.scale), ("rotation", .ofWord e.rotation),
    ("animation_timer", .ofWord e.animationTimer), ("animation_speed", .ofWord e.animationSpeed),
    ("type_id", .ofByte e.typeId), ("property_value", .ofByte e.propertyValue),
    ("state", .ofByte e.state), ("priority", .ofByte e.priority),
    ("draw_order", .ofByte e.drawOrder), ("direction", .ofByte e.direction),
    ("ink_effect", .ofByte e.inkEffect), ("alpha", .ofByte e.alpha),
    ("animation", .ofByte e.animation), ("prev_animation", .ofByte e.prevAnimation),
    ("frame", .ofByte e.frame)]

/-- An entity as a record. -/
def Entity.toJson (e : Entity) : Json := .ofFields e.toFields

/-- The physics constants of a player as a record. -/
def PlayerStats.toJson (s : PlayerStats) : Json :=
  .ofFields [("top_speed", .ofWord s.topSpeed), ("acceleration", .ofWord s.acceleration),
    ("deceleration", .ofWord s.deceleration), ("air_acceleration", .ofWord s.airAcceleration),
    ("air_deceleration", .ofWord s.airDeceleration),
    ("gravity_strength", .ofWord s.gravityStrength), ("jump_strength", .ofWord s.jumpStrength),
    ("jump_cap", .ofWord s.jumpCap), ("rolling_acceleration", .ofWord s.rollingAcceleration),
    ("rolling_deceleration", .ofWord s.rollingDeceleration)]

/-- A player as a record. -/
def Player.toJson (p : Player) : Json :=
  .ofFields [("entity", .ofNat p.entity.val), ("x_pos", .ofWord p.xPos),
    ("y_pos", .ofWord p.yPos), ("screen_x_pos", .ofWord p.screenXPos),
    ("screen_y_pos", .ofWord p.screenYPos), ("speed", .ofWord p.speed),
    ("x_velocity", .ofWord p.xVelocity), ("y_velocity", .ofWord p.yVelocity),
    ("gravity", .ofWord p.gravity), ("angle", .ofWord p.angle), ("timer", .ofWord p.timer),
    ("look_pos", .ofWord p.lookPos), ("values", .ofWords p.values),
    ("control_mode", .ofWord p.controlMode), ("control_lock", .ofWord p.controlLock),
    ("collision_mode", .ofByte p.collisionMode), ("collision_plane", .ofByte p.collisionPlane),
    ("skidding", .ofWord p.skidding), ("pushing", .ofWord p.pushing),
    ("track_scroll", .ofWord p.trackScroll), ("up", .ofByte p.up), ("down", .ofByte p.down),
    ("left", .ofByte p.left), ("right", .ofByte p.right), ("jump_press", .ofByte p.jumpPress),
    ("jump_hold", .ofByte p.jumpHold), ("follow_player1", .ofByte p.followPlayer1),
    ("water", .ofByte p.water), ("flailing", .array (p.flailing.toList.map .ofByte)),
    ("tile_collisions", .ofByte p.tileCollisions),
    ("object_interaction", .ofByte p.objectInteraction), ("visible", .ofByte p.visible),
    ("stats", p.stats.toJson)]

/-! ## Stage, screen and engine -/

/-- The stage as a record. -/
def Stage.toJson (s : Stage) : Json :=
  .ofFields [("state", .ofWord s.state), ("active_list", .ofWord s.activeList),
    ("list_pos", .ofWord s.listPos), ("time_enabled", .ofWord s.timeEnabled),
    ("milliseconds", .ofWord s.milliseconds), ("seconds", .ofWord s.seconds),
    ("minutes", .ofWord s.minutes), ("act_no", .ofWord s.actNo),
    ("pause_enabled", .ofWord s.pauseEnabled), ("list_size", .ofWord s.listSize),
    ("new_x_boundary1", .ofWord s.newXBoundary1), ("new_x_boundary2", .ofWord s.newXBoundary2),
    ("new_y_boundary1", .ofWord s.newYBoundary1), ("new_y_boundary2", .ofWord s.newYBoundary2),
    ("x_boundary1", .ofWord s.xBoundary1), ("x_boundary2", .ofWord s.xBoundary2),
    ("y_boundary1", .ofWord s.yBoundary1), ("y_boundary2", .ofWord s.yBoundary2),
    ("water_level", .ofWord s.waterLevel), ("active_layer", .ofWord s.activeLayer),
    ("mid_point", .ofWord s.midPoint), ("player_list_pos", .ofWord s.playerListPos),
    ("active_player", .ofNat s.activePlayer.val), ("debug_mode", .ofWord s.debugMode),
    ("title_card", .ofString s.titleCard), ("load_requested", .bool s.loadRequested)]

/-- The screen as a record. -/
def Screen.toJson (s : Screen) : Json :=
  .ofFields [("camera_enabled", .ofWord s.cameraEnabled),
    ("camera_target", .ofWord s.cameraTarget), ("camera_style", .ofWord s.cameraStyle),
    ("center_x", .ofWord s.centerX), ("center_y", .ofWord s.centerY), ("x_size", .ofWord s.xSize),
    ("y_size", .ofWord s.ySize), ("x_offset", .ofWord s.xOffset), ("y_offset", .ofWord s.yOffset),
    ("shake_x", .ofWord s.shakeX), ("shake_y", .ofWord s.shakeY),
    ("adjust_camera_y", .ofWord s.adjustCameraY)]

/-- The buttons of a game pad as a record. -/
def Buttons.toJson (b : Buttons) : Json :=
  .ofFields [("up", .bool b.up), ("down", .bool b.down), ("left", .bool b.left),
    ("right", .bool b.right), ("button_a", .bool b.buttonA), ("button_b", .bool b.buttonB),
    ("button_c", .bool b.buttonC), ("start", .bool b.start)]

/-- The game pad as a record. -/
def Input.toJson (i : Input) : Json :=
  .ofFields [("down", i.held.toJson), ("press", i.pressed.toJson)]

/-- A finger on the touch screen as a record. -/
def TouchPoint.toJson (t : TouchPoint) : Json :=
  .ofFields [("down", .bool t.down), ("x", .ofWord t.x), ("y", .ofWord t.y)]

/-- The music as a record. -/
def Music.toJson (m : Music) : Json :=
  .ofFields [("volume", .ofWord m.volume), ("current_track", .ofWord m.currentTrack)]

/-- A row of a menu as a record. -/
def MenuRow.toJson (r : MenuRow) : Json :=
  .ofFields [("text", .ofString r.text), ("highlighted", .bool r.highlighted)]

/-- A menu as a record. -/
def TextMenu.toJson (m : TextMenu) : Json :=
  .ofFields [("rows", .array (m.rows.toList.map MenuRow.toJson)),
    ("visible_rows", .ofWord m.visibleRows), ("selection_count", .ofWord m.selectionCount),
    ("alignment", .ofWord m.alignment), ("selection1", .ofWord m.selection1),
    ("selection2", .ofWord m.selection2)]

/-! ## Layers and space -/

/-- A tile layer without its tiles as a record. -/
def TileLayer.toJson (l : TileLayer) : Json :=
  .ofFields [("x_size", .ofWord l.xSize), ("y_size", .ofWord l.ySize),
    ("layout_type", .ofByte l.layoutType), ("angle", .ofWord l.angle), ("x_pos", .ofWord l.xPos),
    ("y_pos", .ofWord l.yPos), ("z_pos", .ofWord l.zPos),
    ("parallax_factor", .ofWord l.parallaxFactor), ("scroll_speed", .ofWord l.scrollSpeed),
    ("scroll_pos", .ofWord l.scrollPos), ("deformation_offset", .ofWord l.deformationOffset),
    ("deformation_offset_w", .ofWord l.deformationOffsetW)]

/-- A parallax line as a record. -/
def Parallax.toJson (p : Parallax) : Json :=
  .ofFields [("parallax_factor", .ofWord p.parallaxFactor),
    ("scroll_speed", .ofWord p.scrollSpeed), ("scroll_pos", .ofWord p.scrollPos)]

/-- A matrix as the list of its rows. -/
def Matrix.toJson (m : Matrix) : Json := .array (m.rows.toList.map .ofWords)

/-- The three-dimensional scene without its vertices and faces as a record. -/
def Scene3D.toJson (s : Scene3D) : Json :=
  .ofFields [("vertex_count", .ofWord s.vertexCount), ("face_count", .ofWord s.faceCount),
    ("projection_x", .ofWord s.projectionX), ("projection_y", .ofWord s.projectionY),
    ("matrices", .array (s.matrices.toList.map fun m => .ofFields [("values", m.toJson)]))]

/-- A vertex as a record. -/
def Vertex.toJson (v : Vertex) : Json :=
  .ofFields [("x", .ofWord v.x), ("y", .ofWord v.y), ("z", .ofWord v.z), ("u", .ofWord v.u),
    ("v", .ofWord v.v)]

/-- A face as a record. -/
def Face.toJson (f : Face) : Json :=
  .ofFields [("a", .ofWord f.a), ("b", .ofWord f.b), ("c", .ofWord f.c), ("d", .ofWord f.d),
    ("flag", .ofByte f.flag), ("color", .ofWord f.color)]

/-- The engine's settings as a record. -/
def EngineFlags.toJson (e : EngineFlags) : Json :=
  .ofFields [("state", .ofWord e.state), ("message", .ofWord e.message),
    ("language", .ofWord e.language), ("online_active", .ofWord e.onlineActive),
    ("frame_skip_timer", .ofWord e.frameSkipTimer),
    ("frame_skip_setting", .ofWord e.frameSkipSetting), ("sfx_volume", .ofWord e.sfxVolume),
    ("bgm_volume", .ofWord e.bgmVolume), ("platform_id", .ofWord e.platformId),
    ("trial_mode", .ofWord e.trialMode), ("haptics_enabled", .ofWord e.hapticsEnabled),
    ("version", .ofString e.version)]

/-- A sprite frame as a record. -/
def SpriteFrame.toJson (f : SpriteFrame) : Json :=
  .ofFields [("pivot_x", .ofWord f.pivotX), ("pivot_y", .ofWord f.pivotY),
    ("width", .ofWord f.width), ("height", .ofWord f.height), ("sprite_x", .ofWord f.spriteX),
    ("sprite_y", .ofWord f.spriteY)]

end StageScript
