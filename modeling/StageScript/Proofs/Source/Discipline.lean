import StageScript.Compiler.Line

/-! # Disciplined sources
Some lines compile although the bodies they stand in do not hold together: a sub-script that is closed
as a function, an instruction for a block that is written out as a call, and a name that takes the
place of the number of a slot.
* **`Region.admits`** — whether a line is none of these where it stands;
* **`isDisciplined`** — whether no line of a source is one. -/

namespace StageScript

/-- Whether an opcode is written by the compiler alone: those that open a block come from the keyword
of the block, and the one that returns comes from a closing line. -/
def Opcode.isReserved : Opcode → Bool
  | .ifTest _ => true
  | .whileTest _ => true
  | .control .switch => true
  | .control .endFunction => true
  | _ => false

/-- Where a line stands. -/
inductive Region
  /-- Outside bodies. -/
  | outside
  /-- In a body. -/
  | body (isFunction : Bool)
  /-- In a platform block of a body that is left out. -/
  | skipped (isFunction : Bool)
  deriving DecidableEq, Repr

namespace Region

/-- Whether a line closes a body. -/
def closes (text : Text) : Bool :=
  Text.sameName text "endsub".toList || Text.sameName text "endfunction".toList

/-- Where the line behind a line stands. -/
def after (tags : List Text) (text : Text) : Region → Region
  | .outside =>
    if (Directive.alias? text).isSome then .outside
    else if (SubScript.ofMarker? text).isSome then .body false
    else
      match Directive.function? text with
      | some (.define _) => .body true
      | _ => .outside
  | .body isFunction =>
    if closes text then .outside
    else
      match Directive.platform? text with
      | some named => if named.any tags.contains then .body isFunction else .skipped isFunction
      | none => .body isFunction
  | .skipped isFunction =>
    if Directive.endsPlatform text then .body isFunction else .skipped isFunction

/-- The name that a line outside bodies makes known. -/
def introduced? (text : Text) : Option Text :=
  match Directive.alias? text with
  | some a => some a.name
  | none =>
    match Directive.function? text with
    | some (.declare name) => some name
    | some (.define name) => some name
    | none => none

/-- Whether a line is a call of a reserved opcode. -/
def callsReserved (text : Text) : Bool :=
  !(Rewrite.condition? text 0).isSome && !Directive.startsSwitch text &&
    ((Opcode.lookup? (Call.split ((Rewrite.assignment? text).getD text)).name).any
      Opcode.isReserved)

/-- Whether a line may stand there: names are no numerals, what is closed as a function is one, and
no reserved opcode is called. -/
def admits (text : Text) : Region → Bool
  | .outside => (introduced? text).all fun name => (Numeral.natural? name).isNone
  | .body isFunction =>
    if Text.sameName text "endsub".toList then true
    else if Text.sameName text "endfunction".toList then isFunction
    else (Directive.platform? text).isSome || Directive.endsPlatform text || !callsReserved text
  | .skipped _ => true

/-- Whether every line may stand where it stands, the first of them being in the region. -/
def admitsAll (tags : List Text) : Region → List Line → Bool
  | _, [] => true
  | region, line :: rest =>
    if line.text = [] then admitsAll tags region rest
    else region.admits line.text && admitsAll tags (region.after tags line.text) rest

end Region

/-- **Whether a source is disciplined** for some globals and tags. -/
def isDisciplined (globals tags : List Text) (source : Text) : Bool :=
  (globals.all fun name => (Numeral.natural? name).isNone) &&
    Region.outside.admitsAll tags (Line.ofSource source)

end StageScript
