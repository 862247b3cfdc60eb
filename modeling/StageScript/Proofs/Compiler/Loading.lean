import StageScript.Proofs.Compiler.Meaning
import StageScript.Proofs.Compiler.Names
import StageScript.Proofs.Machine.Walk
import StageScript.Proofs.Source.OperandForm

/-! # Operands from their text to their value
What an operand of a script becomes in compiled code is what the machine loads when it runs there.
* `OperandForm.Denotes` — the argument that a form of operand stands for in a file;
* **`OperandForm.Denotes.meaning?_eq`** — the compiler takes an operand for the argument that it stands
  for;
* **`walkOperand_of_holds`** — the machine loads an argument from its words, wherever they stand;
* **`emitOperand_loads`** — an operand of any form is read from its text, adds the words of what it
  stands for, and is loaded from them. -/

namespace StageScript

open Stepwise Compiler

/-! ## What a form of operand stands for -/

/-- What a form of operand stands for where the names of a compiler are known. None of them may be the
name of the operand, save the one that a form asks for. -/
inductive OperandForm.Denotes (c : Compiler) : OperandForm → Argument → Prop
  | literal {l : Literal} (unnamed : c.Unnamed l.text) : Denotes c (.literal l) (.integer l.word)
  | quoted {content : Text} {noQuote : '"' ∉ content} (unnamed : c.Unnamed (quote content)) :
      Denotes c (.quoted content noQuote) (.text content)
  | variable {v : Variable} {name : Text} {known : Variable.lookup? name = some v}
      (unnamed : c.Unnamed name) : Denotes c (.variable v name known) (.element v .self)
  | element {v : Variable} {front back : Text} {known : Variable.lookup? (front ++ back) = some v}
      {index : WrittenIndex} (unnamed : c.Unnamed (front ++ back)) :
      Denotes c (.element v front back known index) (.element v index.address)
  | function {name : Text} {i : Nat} (aliases : ∀ a ∈ c.aliases, Text.sameName a.name name = false)
      (globals : ∀ g ∈ c.globals, Text.sameName g name = false)
      (declared : c.program.functionIndex? name = some i) :
      Denotes c (.function name) (.integer (Word.ofNat i))
  | global {name : Text} {slot : Nat} (aliases : ∀ a ∈ c.aliases, Text.sameName a.name name = false)
      (configured : c.globals.findIdx? (fun g => Text.sameName g name) = some slot)
      (functions : ∀ f ∈ c.program.functions, Text.sameName f.name "Global".toList = false) :
      Denotes c (.global name) (.element .global (.at (.literal (Word.ofNat slot))))
  | typeName {spelling label : Text} {spells : Text.sameName spelling "TypeName".toList = true}
      (unnamed : c.Unnamed spelling) :
      Denotes c (.typeName spelling label spells)
        (.integer (Word.ofNat ((c.program.typeIndex? label).getD 0)))

/-! ## Indices -/

theorem IndexRegister.lookup?_name (r : IndexRegister) : lookup? r.name.toList = some r := by
  cases r <;> decide

/-- A register is looked up without regard to case. -/
theorem IndexRegister.lookup?_of_sameName {r : IndexRegister} {spelling : Text}
    (spells : Text.sameName r.name.toList spelling = true) : lookup? spelling = some r := by
  simpa only [lookup?, Text.sameName_congr spells] using lookup?_name r

/-- Without a sign an index is an element. -/
theorem Operand.addressMode_of_head? {text : Text} (plus : text.head? ≠ some '+')
    (minus : text.head? ≠ some '-') : addressMode text = (.at, text) := by
  unfold addressMode
  split
  · exact absurd rfl plus
  · exact absurd rfl minus
  · rfl

/-- The slot of a global as an index. -/
theorem Operand.address?_ofNat (n : Nat) :
    address? (some (Numeral.ofNat n)) = some (.at (.literal (Word.ofNat n))) := by
  have noSign (mark : Char) (other : ¬ Numeral.IsDigit mark) : (Numeral.ofNat n).head? ≠ some mark :=
    fun head => other (Numeral.isDigit_of_mem_ofNat (List.mem_of_head? head))
  have noDigit (mark : Char) (others : ∀ d, d < 10 → Numeral.digitChar d ≠ mark) :
      ¬ Numeral.IsDigit mark := fun digit =>
    digit.of_forall (P := (· ≠ mark)) others rfl
  rw [address?, addressMode_of_head? (noSign '+' (noDigit _ (by decide)))
    (noSign '-' (noDigit _ (by decide))), indexSource?, Numeral.parse?_ofNat]
  rfl

/-- The amount in brackets is what the index is taken from. -/
theorem Amount.indexSource?_text (a : Amount) : Operand.indexSource? a.text = some a.source := by
  cases a with
  | number n =>
    rw [Operand.indexSource?, text, n.parse?_text]
    rfl
  | register r spelling spells =>
    rw [Operand.indexSource?, text, IndexRegister.parse?_spelling spells]
    exact congrArg (Option.map IndexSource.register) (IndexRegister.lookup?_of_sameName spells)

/-- An amount without a sign of its own does not begin with one. -/
theorem Amount.addressMode_text {a : Amount} (unsigned : a.Unsigned) :
    Operand.addressMode a.text = (.at, a.text) := by
  have noSign : a.text.head? ≠ some '+' ∧ a.text.head? ≠ some '-' := by
    cases a with
    | number n =>
      have bare : n.text = n.system.mark ++ n.digits := by
        rw [Literal.text, Literal.sign, show n.minus? = none from unsigned]
        rfl
      rw [text, bare]
      exact ⟨fun head => (Literal.body_head?_ne head).2 rfl,
        fun head => (Literal.body_head?_ne head).1 rfl⟩
    | register r spelling spells =>
      have absent (mark : Char) (other : mark.isAlpha = false) (none_ : mark ∉ r.name.toList) :
          spelling.head? ≠ some mark := fun head =>
        none_ (Text.mem_of_sameName spells other (List.mem_of_head? head))
      exact ⟨absent _ rfl (by cases r <;> decide), absent _ rfl (by cases r <;> decide)⟩
  exact Operand.addressMode_of_head? noSign.1 noSign.2

/-- **An index in brackets** is the address that it means. -/
theorem WrittenIndex.address?_text (i : WrittenIndex) : Operand.address? (some i.text) = some i.address := by
  obtain ⟨minus?, amount, unsigned⟩ := i
  rw [Operand.address?, text, address]
  rcases minus? with _ | _ | _
  · rw [Amount.addressMode_text (unsigned rfl)]
    exact congrArg (Option.map Address.at) amount.indexSource?_text
  · exact congrArg (Option.map Address.ahead) amount.indexSource?_text
  · exact congrArg (Option.map Address.behind) amount.indexSource?_text

/-! ## Operands -/

/-- A quoted text is the text between its quotes. -/
theorem Operand.quoted?_quote (content : Text) :
    quoted? (OperandForm.quote content) = some content := by
  rw [OperandForm.quote, quoted?, List.getLast?_concat, if_pos rfl, List.dropLast_concat]

/-- A quoted text is no number. -/
theorem Numeral.parse?_quote (content : Text) : parse? (OperandForm.quote content) = none := by
  have body : radix (OperandForm.quote content) = (10, OperandForm.quote content) := by
    unfold radix
    split
    · next eq => cases (List.cons.inj eq).1
    · next eq => cases (List.cons.inj eq).1
    · rfl
  have sign_ : sign (OperandForm.quote content) = (false, OperandForm.quote content) := rfl
  rw [parse?, sign_]
  dsimp only
  rw [body]
  rfl

namespace Operand

theorem argument?_of_parse? {base : Text} {index : Option Text} {value : Word}
    (number : Numeral.parse? base = some value) :
    argument? { base, index } = some (.integer value) := by
  rw [argument?, number]

/-- A name of a variable means the variable, at the address that the index means. -/
theorem argument?_of_lookup? {base : Text} {index : Option Text} {v : Variable} {address : Address}
    (known : Variable.lookup? base = some v) (meant : address? index = some address) :
    argument? { base, index } = some (.element v address) := by
  have worded := Variable.worded_of_lookup? known
  have bare : quoted? base = none := by
    unfold quoted?
    split
    · next rest => exact absurd rfl (worded.plain '"' List.mem_cons_self).1
    · rfl
  rw [argument?, worded.number]
  dsimp only
  rw [bare]
  dsimp only
  rw [meant, known]
  rfl

end Operand

namespace OperandForm.Denotes

variable {c : Compiler} {f : OperandForm} {a : Argument}

/-- **The compiler takes an operand for the argument that it stands for.** -/
theorem meaning?_eq (denotes : f.Denotes c a) : c.meaning? f.operand = some a := by
  -- Names are put in their order: aliases, globals, functions, types. A name that is of no kind
  -- passes them all.
  rw [meaning?]
  cases denotes with
  | @literal l unnamed =>
    have other : Text.sameName l.text "TypeName".toList = false := by
      rw [← Bool.not_eq_true]
      intro same
      have none_ : Numeral.parse? "TypeName".toList = none := by decide +kernel
      rw [← Numeral.parse?_congr same, l.parse?_text] at none_
      cases none_
    rw [operand, Unnamed.substitute_eq unnamed, substituteType_eq other]
    exact Operand.argument?_of_parse? l.parse?_text
  | @quoted content noQuote unnamed =>
    rw [operand, Unnamed.substitute_eq unnamed, substituteType_eq rfl, Operand.argument?,
      Numeral.parse?_quote]
    dsimp only
    rw [Operand.quoted?_quote]
  | @«variable» v name known unnamed =>
    have worded := Variable.worded_of_lookup? known
    rw [operand, Unnamed.substitute_eq unnamed, substituteType_eq worded.type]
    exact Operand.argument?_of_lookup? known rfl
  | @element v front back known index unnamed =>
    have worded := Variable.worded_of_lookup? known
    rw [operand, Unnamed.substitute_eq unnamed, substituteType_eq worded.type]
    exact Operand.argument?_of_lookup? known index.address?_text
  | @function name i aliases globals declared =>
    rw [operand, substitute, foldl_applyTo_eq aliases, substituteGlobal_eq globals,
      substituteFunction, declared]
    dsimp only
    rw [Operand.withNumber, substituteType_eq (sameName_ofNat_typeName i)]
    exact Operand.argument?_of_parse? (Numeral.parse?_ofNat i)
  | @global name slot aliases configured functions =>
    rw [operand, substitute, foldl_applyTo_eq aliases, substituteGlobal, configured]
    dsimp only
    rw [substituteFunction_eq functions, substituteType_eq rfl]
    exact Operand.argument?_of_lookup? (by decide +kernel) (Operand.address?_ofNat slot)
  | @typeName spelling label spells unnamed =>
    rw [operand, Unnamed.substitute_eq unnamed, substituteType, if_pos spells, Option.getD_some,
      Operand.withNumber]
    exact Operand.argument?_of_parse? (Numeral.parse?_ofNat _)

end OperandForm.Denotes

/-! ## Words of operands in code -/

/-- **The machine loads an argument from its words**, wherever they stand, and goes on behind them. -/
theorem walkOperand_of_holds {code : Array Word} {start : Nat} {a : Argument}
    (holds : Holds code start a.encode) (readable : a.Readable) (object place : Nat) (m : Machine) :
    walkOperand .load code object place start m =
      (do
        let value ← a.load object
        modify (·.setOperand place value)
        return start + a.encode.length : Exec Nat) m := by
  have read := Argument.decode_of_holds holds readable
  rw [walkOperand_eq, bind_apply, read]
  simp only [mk_pure_apply, Argument.use, bind_apply]
  rcases a.load object m with ⟨_ | value, m'⟩ <;> rfl

/-- Words stand where they are put between others. -/
theorem Holds.between (front back : Array Word) (words : List Word) :
    Holds (front ++ words.toArray ++ back) front.size words :=
  (Holds.of_append front words).mono back

/-- An operand that has a meaning adds the words of it as far as there is room for them. -/
theorem Compiler.emitOperand_of_meaning? {c : Compiler} {o : Operand} {a : Argument}
    (meant : c.meaning? o = some a) : emitOperand o c = emit a.encode c := by
  have words := Operand.emission_eq (c.substitute o)
  rw [show (c.substitute o).argument? = some a from meant] at words
  dsimp only at words
  rw [emitOperand, bind_apply, get_apply]
  dsimp only
  rw [words, bind_apply]
  dsimp only
  rcases emit a.encode c with ⟨_ | ⟨⟨⟩⟩, c'⟩
  · rfl
  · rfl

/-- **Operands of every form, from their text to their value.** A call reads the text of an operand as
the operand that is meant. Where there is room for the words of what the operand stands for, it adds
those words to the code, and they are what the machine loads wherever they stand: an integer, a text
that becomes the script text, or a variable at the address of its index. The machine then goes on
right behind them. Where there is no room, the operand fails for that reason. -/
theorem emitOperand_loads {c : Compiler} {f : OperandForm} {a : Argument} (denotes : f.Denotes c a) :
    (f.IsPlain → Call.Reads f.text f.operand) ∧
    if a.encode.length ≤ codeCapacity - c.program.code.size then
      emitOperand f.operand c = (.ok (), c.addCode a.encode) ∧
      ∀ (front back : Array Word) (object place : Nat) (m : Machine),
        walkOperand .load (front ++ a.encode.toArray ++ back) object place front.size m =
          (do
            let value ← a.load object
            modify (·.setOperand place value)
            return front.size + a.encode.length : Exec Nat) m
    else
      emitOperand f.operand c =
        (.error (.exhausted .code),
          c.addCode (a.encode.take (codeCapacity - c.program.code.size))) := by
  have meant := denotes.meaning?_eq
  refine ⟨f.reads, ?_⟩
  rw [emitOperand_of_meaning? meant, emit_apply]
  split
  · next room =>
    have readable := Operand.readable_of_argument? meant (by omega)
    exact ⟨rfl, fun front back object place m =>
      walkOperand_of_holds (Holds.between front back a.encode) readable object place m⟩
  · rfl

/-- The horizontal position of the entity that stands as far behind the running one as a register
says, in a file with no names but the usual ones. -/
theorem emitOperand_loads_behind :
    let c : Compiler := { program := {}, globals := [], tags := [] }
    let form : OperandForm := .element (.object .xPos) "Object".toList ".xpos".toList
      (by decide +kernel) ⟨some true, .register .arrayPos0 "arraypos0".toList (by decide), nofun⟩
    let a : Argument := .element (.object .xPos) (.behind (.register .arrayPos0))
    form.Denotes c a ∧ form.text = "Object[-arraypos0].xpos".toList ∧
      Call.Reads "Object[-arraypos0].xpos".toList
        ⟨"Object.xpos".toList, some "-arraypos0".toList⟩ ∧
      emitOperand ⟨"Object.xpos".toList, some "-arraypos0".toList⟩ c =
        (.ok (), c.addCode [1, 3, 1, 0, 16]) ∧
      ∀ (front back : Array Word) (object place : Nat) (m : Machine),
        walkOperand .load (front ++ #[1, 3, 1, 0, 16] ++ back) object place front.size m =
          (do
            let value ← Variable.read (.object .xPos)
              (Word.ofNat object - (← get).registers.index .arrayPos0)
            modify (·.setOperand place value)
            return front.size + 5 : Exec Nat) m := by
  intro c form a
  have denotes : form.Denotes c a := .element ⟨by decide +kernel, nofun, nofun⟩
  have words : a.encode = [1, 3, 1, 0, 16] := by decide +kernel
  obtain ⟨reads, loads⟩ := emitOperand_loads denotes
  rw [words, if_pos (by decide)] at loads
  exact ⟨denotes, by decide +kernel, reads trivial, loads⟩

end StageScript
