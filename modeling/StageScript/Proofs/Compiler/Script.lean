import StageScript.Proofs.Compiler.Translation

/-! # Scripts
A script as it is written, and what it says.
* `Item` — the parts of a script, and `Script.Spells` the lines that they are written in;
* `Reading` — what scripts have said so far: their names, and what the bodies of functions and
  sub-scripts say;
* **`Script.read`** — what a script says in addition, with what each name stands for where it is used. -/

namespace StageScript

/-! ## Parts of scripts -/

/-- What a body belongs to. -/
inductive Header
  | sub (sub : SubScript)
  | function (name : Text)
  deriving DecidableEq, Repr

namespace Header

/-- A line that opens a body. -/
def Opens (header : Header) (text : Text) : Prop :=
  match header with
  | .sub kind => SubScript.ofMarker? text = some kind
  | .function name => Directive.function? text = some (.define name)

instance (header : Header) (text : Text) : Decidable (header.Opens text) :=
  match header with
  | .sub kind => inferInstanceAs (Decidable (SubScript.ofMarker? text = some kind))
  | .function name => inferInstanceAs (Decidable (Directive.function? text = some (.define name)))

/-- The keyword that closes a body. -/
def keyword : Header → String
  | .sub _ => "endsub"
  | .function _ => "endfunction"

/-- The opcode that closes a body. -/
def closer : Header → Opcode
  | .sub _ => .control .stop
  | .function _ => .control .endFunction

end Header

/-- A part of a script. -/
inductive Item
  /-- A line that is passed over. -/
  | remark
  /-- An alias for the lines behind it. -/
  | named (a : Alias)
  /-- A function that is made known. -/
  | declared (name : Text)
  | body (header : Header) (passage : Passage)
  deriving DecidableEq, Repr

/-- The lines that a part of a script is written in. -/
inductive Item.Spells (Fit : Text → Operand → Prop) : Item → List Line → Prop
  | remark {line : Line} (noAlias : Directive.alias? line.text = none)
    (noSub : SubScript.ofMarker? line.text = none) (noFunction : Directive.function? line.text = none) :
    Spells Fit remark [line]
  | named {line : Line} {a : Alias} (read : Directive.alias? line.text = some a) :
    Spells Fit (named a) [line]
  | declared {line : Line} {name : Text} (read : Directive.function? line.text = some (.declare name)) :
    Spells Fit (declared name) [line]
  | body {first last : Line} {header : Header} {passage : Passage} {lines : List Line}
    (opens : header.Opens first.text) (inside : passage.Spells Fit lines)
    (closes : Closes header.keyword last.text) :
    Spells Fit (body header passage) (first :: (lines ++ [last]))

/-- **The lines that a script is written in**: those of its parts, one after the other. -/
inductive Script.Spells (Fit : Text → Operand → Prop) : List Item → List Line → Prop
  | nil : Spells Fit [] []
  | cons {item : Item} {items : List Item} {lines more : List Line}
    (first : item.Spells Fit lines) (others : Spells Fit items more) :
    Spells Fit (item :: items) (lines ++ more)

/-! ## What scripts say -/

/-- What scripts have said so far. -/
structure Reading where
  /-- The aliases of the current script. -/
  aliases : List Alias := defaultAliases
  globals : List Text := []
  types : Array Text := #["BlankObject".toList]
  /-- The functions in the order in which they became known, with what their bodies say. -/
  functions : List (Text × Option Statement) := []
  /-- What the sub-scripts of each object type say. -/
  subs : Nat → SubScript → Option Statement := fun _ _ => none

namespace Reading

/-- What the body of a function says. -/
def bodies (r : Reading) (index : Nat) : Option Statement := r.functions[index]?.bind (·.2)

/-- What names stand for. -/
def names (r : Reading) : Names :=
  Compiler.names
    { program :=
        { functions := (r.functions.map fun f => { name := f.1 }).toArray, typeNames := r.types }
      globals := r.globals
      tags := []
      aliases := r.aliases }

/-- The number of a function, which becomes known if it is new. -/
def number (r : Reading) (name : Text) : Nat × Reading :=
  match r.functions.findIdx? fun f => Text.sameName f.1 name with
  | some index => (index, r)
  | none => (r.functions.length, { r with functions := r.functions ++ [(name, none)] })

/-- What the body of a function says from now on. -/
def define (r : Reading) (index : Nat) (s : Statement) : Reading :=
  { r with functions := r.functions.modify index fun f => (f.1, some s) }

/-- What a sub-script says from now on. -/
def record (r : Reading) (type : Nat) (sub : SubScript) (s : Statement) : Reading :=
  { r with subs := fun type' sub' => if type' = type ∧ sub' = sub then some s else r.subs type' sub' }

end Reading

/-- What a part of a script says, which belongs to an object type. -/
def Item.read (type : Nat) : Item → Reading → Option Reading
  | remark, r => some r
  | named a, r => some { r with aliases := r.aliases ++ [a] }
  | declared name, r => some (r.number name).2
  | body (.sub sub) passage, r => do
    let (s, _) ← passage.resolve r.names 0
    return r.record type sub s
  | body (.function name) passage, r => do
    let (index, r) := r.number name
    let (s, _) ← passage.resolve r.names 0
    return r.define index s

/-- What parts of a script say, one after the other. -/
def Script.readItems (type : Nat) : List Item → Reading → Option Reading
  | [], r => some r
  | item :: items, r => item.read type r >>= readItems type items

/-- **What a script says** for an object type. It begins with no aliases but the default ones. -/
def Script.read (type : Nat) (script : List Item) (r : Reading) : Option Reading :=
  readItems type script { r with aliases := defaultAliases }

end StageScript
