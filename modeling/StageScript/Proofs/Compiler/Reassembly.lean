import StageScript.Proofs.Compiler.Legibility
import StageScript.Proofs.Compiler.Underway

/-! # Listings that are compiled again
The operands of a listed instruction can be put behind its name as a call.
* `Instruction.written` — an instruction written out so;
* `Instruction.IsWritable` — the instructions whose operands say what they are;
* **`Instruction.IsWritable.compileLine_written`** — what is written out compiles to the words of the
  instruction;
* **`Compiler.compileLine_listing`** — so does the listing of every instruction that a line of a file has
  added;
* **`Compiler.not_all_listings`** — an argument that is not legible breaks this. -/

namespace StageScript

open Stepwise Compiler

/-! ## Words that are added -/

namespace Compiler

variable {c : Compiler}

/-- Words that stand one behind the other are added one after the other. -/
theorem emit_append (words more : List Word) :
    emit (words ++ more) = (do emit words; emit more : Emit Unit) := by
  induction words with
  | nil => rfl
  | cons w words ih =>
    have step (rest : List Word) :
        emit (w :: rest) = (do discard (edit (Program.pushCode w)); emit rest : Emit Unit) := rfl
    rw [List.cons_append, step, step, ih, bind_assoc]

/-- Operands with a meaning add the words of it as far as there is room for them. -/
theorem forM_emitOperand_of_meaning? {operands : List Operand} {arguments : List Argument}
    (meant : operands.map c.meaning? = arguments.map some) :
    operands.forM emitOperand c = emit (arguments.flatMap Argument.encode) c := by
  induction operands generalizing c arguments with
  | nil =>
    obtain rfl := List.map_eq_nil_iff.1 meant.symm
    rfl
  | cons o operands ih =>
    cases arguments with
    | nil => cases meant
    | cons a arguments =>
      obtain ⟨first, others⟩ := List.cons.inj meant
      have step : (o :: operands).forM emitOperand c =
          (do emitOperand o; operands.forM emitOperand : Emit Unit) c := rfl
      rw [step, List.flatMap_cons, emit_append, bind_apply, bind_apply, emitOperand_of_meaning? first]
      rcases emitted : emit a.encode c with ⟨reason | ⟨⟨⟩⟩, c₁⟩
      · rfl
      · obtain ⟨rfl, -⟩ := emit_eq_ok emitted
        exact ih (by simpa using others)

end Compiler

/-- An opcode that lines may call by its name governs no block. -/
theorem Opcode.IsPlain.governedBlock_eq {op : Opcode} (h : op.IsPlain) : governedBlock op = none := by
  unfold governedBlock
  split
  all_goals first
    | rfl
    | exact absurd h (by decide)

/-! ## Instructions that are written out -/

namespace Instruction

/-- The words of an instruction. -/
def words (i : Instruction) : List Word := encode i.opcode i.arguments

/-- **An instruction written out as a call**: its name with the operands of its listing. -/
def written (i : Instruction) : Text :=
  Call.render i.opcode.name.toList (i.operands.map String.toList)

theorem written_eq (i : Instruction) :
    i.written = Call.render i.opcode.name.toList (i.arguments.map Argument.render) := by
  rw [written, operands, List.map_map]
  congr 2
  funext a
  exact String.toList_ofList

variable {c d : Compiler} {i : Instruction} {type number : Nat} {rest : List Line}

/-- **What an instruction has to be** to be written out in a file with some globals: its opcode is called
by its name, its operands are as many as the opcode takes, and their texts say what they are. -/
structure IsWritable (globals : List Text) (i : Instruction) : Prop where
  known : Opcode.lookup? i.opcode.name.toList = some i.opcode
  plain : i.opcode.IsPlain
  arity : i.arguments.length = i.opcode.arity
  named : ∀ a ∈ i.arguments, a.IsNamed
  inline : ∀ a ∈ i.arguments, a.IsInline
  legible : ∀ a ∈ i.arguments, a.IsLegible globals

namespace IsWritable

variable {globals : List Text}

theorem isName (h : i.IsWritable globals) : Text.IsName i.opcode.name.toList :=
  (Opcode.name_facts i.opcode (Opcode.mem_all_of_lookup? h.known)).1

theorem isInert_written (h : i.IsWritable globals) : i.written.IsInert := by
  rw [written_eq]
  refine Call.isInert_render (.of_name h.isName) fun text member => ?_
  obtain ⟨a, inside, rfl⟩ := List.mem_map.1 member
  exact Argument.isInert_render (h.named a inside) (h.legible a inside).clear (h.inline a inside)

/-- What is written out is read as the name and the operands of the listing. -/
theorem split_written (h : i.IsWritable globals) :
    Call.split i.written = ⟨i.opcode.name.toList, i.arguments.map Argument.listed⟩ := by
  rw [written_eq]
  refine Call.split_render (h.isName.not_mem rfl) ?_
  rw [List.forall₂_map_left_iff, List.forall₂_map_right_iff, List.forall₂_same]
  exact fun a member => a.renders (h.named a member) (h.legible a member).clear

/-- **What is written out is a line with the instruction.** -/
theorem instructs_written (h : i.IsWritable globals) :
    Instructs i.written i.opcode (i.arguments.map Argument.listed) :=
  .call h.isInert_written.noAssignment h.split_written h.known

/-- It is a call, and a line of no other form. -/
theorem isCall_written (h : i.IsWritable globals) : Directive.IsCall i.written := by
  have plain := h.instructs_written.plain h.plain
  have opener : ∀ keyword ∈ Directive.keywords, keyword.toList ∈ Directive.openers := by decide
  refine ⟨Region.closes_of_mem ?_, fun keyword member => plain _ (opener keyword member),
    .inl plain.noConditionKeyword, h.isInert_written.noAssignment⟩
  simp [written_eq, Call.render]

/-- **What is written out is compiled to the words of the instruction**, as far as there is room. -/
theorem emitCall_written (h : i.IsWritable d.globals) (bare : d.Bare) :
    emitCall i.written d = emit i.words d := by
  have meant : (i.arguments.map Argument.listed).map d.meaning? = i.arguments.map some := by
    rw [List.map_map, List.map_inj_left]
    exact fun a member => bare.meaning?_listed (h.named a member) (h.legible a member)
  have call : emitCall i.written d =
      (do emit [i.opcode.word]; (i.arguments.map Argument.listed).forM emitOperand : Emit Unit) d := by
    have arity : ¬ (i.arguments.map Argument.listed).length ≠ i.opcode.arity := by
      rw [List.length_map]
      exact not_not_intro h.arity
    unfold emitCall
    rw [h.split_written]
    dsimp only
    rw [h.known]
    dsimp only
    rw [if_neg arity, h.plain.governedBlock_eq]
    rfl
  have words : i.words = [i.opcode.word] ++ i.arguments.flatMap Argument.encode := rfl
  rw [call, words, emit_append, bind_apply, bind_apply]
  rcases emitted : emit [i.opcode.word] d with ⟨reason | ⟨⟨⟩⟩, d₁⟩
  · rfl
  · obtain ⟨rfl, -⟩ := emit_eq_ok emitted
    exact forM_emitOperand_of_meaning? (by simpa using meant)

/-- **A line with the written out instruction** is compiled to the words of the instruction. -/
theorem compileLine_written (h : i.IsWritable d.globals) (bare : d.Bare) (mode : d.mode = .inside) :
    compileLine type ⟨number, Line.strip i.written⟩ rest d =
      onLine number (emit i.words) d := by
  rw [h.isInert_written.strip_eq, compileLine_of_isCall mode h.isCall_written, onLine, onLine,
    h.emitCall_written bare]

end IsWritable

/-! ## Instructions that a line has added -/

/-- Behind the end of the code there is no instruction. -/
theorem decode_size {code : Array Word} {next : Nat} : decode code code.size ≠ .ok (i, next) := by
  intro decoded
  rw [decode, decodeOpcode, readWord, Array.getElem?_size] at decoded
  cases decoded

/-- The first of the words that were added to the code says which opcode they begin with. -/
theorem opcode_of_decode {code : Array Word} {op : Opcode} {words : List Word} {next : Nat}
    (known : op ∈ Opcode.all)
    (decoded : decode (code ++ (op.word :: words).toArray) code.size = .ok (i, next)) :
    i.opcode = op := by
  have opcode := decodeOpcode_of_holds (Holds.of_append code (op.word :: words)) known
  rw [decode, Except.bind_of_eq_ok opcode] at decoded
  obtain ⟨read, -, same⟩ := Except.exists_of_bind_eq_ok decoded
  exact (congrArg (fun (read : Instruction × Nat) => read.1.opcode) (Except.ok.inj same)).symm

end Instruction

namespace Compiler

variable {c c' d : Compiler} {i : Instruction} {text piece : Text} {type number next : Nat}
  {header? : Option Nat} {rest : List Line}

/-- **Only a call adds an instruction** whose opcode lines may call by its name. -/
theorem called_of_inside (did : Inside c text header? c')
    (decoded : Instruction.decode c'.program.code c.program.code.size = .ok (i, next))
    (plain : i.opcode.IsPlain) :
    header? = none ∧ ∃ (op : Opcode) (arguments : List Argument),
      Opcode.lookup? (Call.split ((Rewrite.assignment? text).getD text)).name = some op ∧
        (Call.split ((Rewrite.assignment? text).getD text)).operands.map c.meaning? =
            arguments.map some ∧
          arguments.length = op.arity ∧ c' = c.addCode (Instruction.encode op arguments) := by
  have none_ (same : c'.program.code = c.program.code) : False :=
    Instruction.decode_size (same ▸ decoded)
  -- the opcodes that control a body or a block are not called by their names
  have other {op : Opcode} {words : List Word} (known : op ∈ Opcode.all) (controls : ¬ op.IsPlain)
      (code : c'.program.code = c.program.code ++ (op.word :: words).toArray) : False :=
    controls (Instruction.opcode_of_decode known (code ▸ decoded) ▸ plain)
  cases did with
  | @closes op bare room keyword =>
    have closer : op ∈ Opcode.all ∧ ¬ op.IsPlain := by
      obtain ⟨-, rfl⟩ | ⟨-, -, rfl⟩ := keyword <;> decide +kernel
    exact (other closer.1 closer.2 rfl).elim
  | platform => exact (none_ (by split <;> rfl)).elim
  | endsPlatform => exact (none_ rfl).elim
  | other noKeyword noPlatform noEnd stated =>
    cases stated with
    | @test condition comparison _ _ known =>
      refine (other (Opcode.mem_all_of_lookup? known) ?_ rfl).elim
      cases condition.keyword <;> cases comparison <;> decide
    | switch _ _ known => exact (other (Opcode.mem_all_of_lookup? known) (by decide) rfl).elim
    | label _ _ label =>
      refine (none_ ?_).elim
      cases label <;> rfl
    | call _ _ _ _ called =>
      cases called with
      | plain known meant arity => exact ⟨rfl, _, _, known, meant, arity, rfl⟩
      | block known _ governs =>
        refine (other (Opcode.mem_all_of_lookup? known) (fun plain => ?_) (code_bound ..)).elim
        rw [plain.governedBlock_eq] at governs
        cases governs

/-- The arguments of a call are named by it and stay on its line. -/
theorem Orderly.of_called (h : c.Orderly) {arguments : List Argument} (inline : text.IsInline)
    (meant : (Call.split text).operands.map c.meaning? = arguments.map some) :
    ∀ a ∈ arguments, a.IsNamed ∧ a.IsInline := by
  intro a member
  have inside : some a ∈ (Call.split text).operands.map c.meaning? := meant ▸ List.mem_map_of_mem member
  obtain ⟨o, operand, meant⟩ := List.mem_map.1 inside
  refine ⟨isNamed_of_meaning? meant, ?_⟩
  cases a with
  | text content => exact h.isInline_of_meaning? (inline.of_subset (Call.base_subset operand)) meant
  | integer => trivial
  | element => trivial

/-- **An instruction that a line of a body has added** can be written out where its text says what it
is. -/
theorem Orderly.writable_of_inside (h : c.Orderly) (inline : text.IsInline)
    (did : Inside c text header? c') (fits : c.Fits → c'.Fits)
    (decoded : Instruction.decode c'.program.code c.program.code.size = .ok (i, next))
    (plain : i.opcode.IsPlain) (legible : ∀ a ∈ i.arguments, a.IsLegible c.globals) :
    i.IsWritable c.globals ∧ c' = c.addCode i.words := by
  obtain ⟨-, op, arguments, known, meant, arity, rfl⟩ := called_of_inside did decoded plain
  have room : (c.program.code ++ (Instruction.encode op arguments).toArray).size ≤ codeCapacity :=
    (fits h.fits).code
  have read := Instruction.decode_of_holds (Holds.of_append c.program.code _)
    (Opcode.mem_all_of_lookup? known) arity (readable_of_meaning? meant (short_of_fits room))
  obtain rfl := (Prod.mk.inj (Except.ok.inj (read.symm.trans decoded))).1
  have callInline : Text.IsInline ((Rewrite.assignment? text).getD text) := by
    cases assigned : Rewrite.assignment? text with
    | none => exact inline
    | some line => exact Rewrite.isInline_assignment? inline assigned
  have facts := h.of_called callInline meant
  exact ⟨⟨Opcode.lookup?_name known, plain, arity, fun a member => (facts a member).1,
    fun a member => (facts a member).2, legible⟩, rfl⟩

/-- **An instruction that a line of a file has added** can be written out where its text says what it
is. -/
theorem Orderly.writable (h : c.Orderly) (inline : text.IsInline)
    (compiled : Compiled c type text c')
    (decoded : Instruction.decode c'.program.code c.program.code.size = .ok (i, next))
    (plain : i.opcode.IsPlain) (legible : ∀ a ∈ i.arguments, a.IsLegible c.globals) :
    i.IsWritable c.globals ∧ c' = c.addCode i.words := by
  cases compiled with
  | outside mode did =>
    obtain ⟨code, -, -⟩ := effect_of_outside did
    exact (Instruction.decode_size (code ▸ decoded)).elim
  | skipped => exact (Instruction.decode_size decoded).elim
  | inside mode did fits => exact h.writable_of_inside inline did fits decoded plain legible
  | primed range mode did fits =>
    -- a line that opens a switch is no call
    rw [code_primed] at decoded
    cases (called_of_inside did decoded plain).1

/-- **A listing is compiled to what was listed.** Let a line of a file compile and add an instruction whose
opcode lines may call by its name, and let the text of each operand say what the operand is: a text has no
quote in it, an element and a distance back are not negative numbers, and no global is named like the
text in front of the brackets. Then the instruction, written out as a call with the operands as they are
listed, is one line, and in a file with the same globals and no names of its own this line adds the same
words, as far as there is room for them. Such an operand has another text than every clear one that is
compiled to other words. -/
theorem compileLine_listing (underway : c.Underway) (single : '\n' ∉ piece)
    (compiled : compileLine type ⟨number, Line.strip piece⟩ rest c = (.ok (), c'))
    (decoded : Instruction.decode c'.program.code c.program.code.size = .ok (i, next))
    (plain : i.opcode.IsPlain) (legible : ∀ a ∈ i.arguments, a.IsLegible c.globals) :
    c' = c.addCode i.words ∧ '\n' ∉ i.written ∧
      (∀ (d : Compiler) (type number : Nat) (rest : List Line),
        d.mode = .inside → d.globals = c.globals → d.Bare →
          if i.words.length ≤ codeCapacity - d.program.code.size then
            compileLine type ⟨number, Line.strip i.written⟩ rest d = (.ok (), d.addCode i.words)
          else
            compileLine type ⟨number, Line.strip i.written⟩ rest d =
              (.error ⟨number, .exhausted .code⟩,
                d.addCode (i.words.take (codeCapacity - d.program.code.size)))) ∧
      ∀ a ∈ i.arguments, ∀ (e : Compiler) (o : Operand) (b : Argument),
        e.meaning? o = some b → b.IsClear → a.render = b.render → a.encode = b.encode := by
  obtain ⟨writable, added⟩ := underway.orderly.writable (Line.isInline_strip single)
    (compiled_of_compileLine compiled) decoded plain legible
  refine ⟨added, writable.isInert_written.inline.2, ?_, ?_⟩
  · intro d type number rest mode globals bare
    rw [← globals] at writable
    rw [writable.compileLine_written bare mode, onLine, emit_apply]
    split
    · rfl
    · rfl
  · intro a member e o b meant clear same
    exact congrArg Argument.encode (Argument.eq_of_render_eq (writable.named a member)
      (isNamed_of_meaning? meant) (legible a member).clear clear same)

/-- A body of a file, in a game whose globals have some names. -/
def bodyAmong (globals : List String) : Compiler :=
  (compileLine 1 ⟨1, Line.strip "sub ObjectMain".toList⟩ []
    { freshCompiler with globals := globals.map String.toList }.startFile).2

theorem underway_bodyAmong (globals : List String) : (bodyAmong globals).Underway := by
  have start : Underway { freshCompiler with globals := globals.map String.toList }.startFile :=
    .start ⟨Nat.zero_le _, Nat.zero_le _⟩
  have single : '\n' ∉ "sub ObjectMain".toList := by decide
  exact .line start single (Except.eq_of_toOption rfl)

theorem compileLine_listing_global :
    let c := bodyAmong ["score"]
    let i : Instruction := ⟨0, .binary .add, [.element .global (.at (.literal 0)),
      .element (.object (.value 0)) (.behind (.literal 1))]⟩
    i.written = "Add(Global[0],Object.Value0[-1])".toList ∧
      compileLine 1 ⟨2, Line.strip "\tscore += object[-0x1].value0; // the one behind".toList⟩ [] c =
          (.ok (), c.addCode i.words) ∧
        compileLine 1 ⟨3, Line.strip i.written⟩ [] c = (.ok (), c.addCode i.words) := by
  intro c i
  have compiled : compileLine 1
      ⟨2, Line.strip "\tscore += object[-0x1].value0; // the one behind".toList⟩ [] c = _ :=
    Except.eq_of_toOption (show _ = some () by decide +kernel)
  have legible : ∀ a ∈ i.arguments, a.IsLegible c.globals := by decide +kernel
  obtain ⟨added, -, again, -⟩ := @compileLine_listing c _ i _ 1 2 11 [] (underway_bodyAmong _) (by decide)
    compiled (Except.eq_ok_of_toOption (by decide +kernel)) (by decide) legible
  have room : i.words.length ≤ codeCapacity - c.program.code.size := by decide +kernel
  have listed := again c 1 3 [] (by decide +kernel) rfl ⟨by decide +kernel, by decide +kernel⟩
  rw [if_pos room] at listed
  exact ⟨by decide +kernel, compiled.trans (by rw [added]), listed⟩

/-- **Not every listing is compiled to what was listed.** An element and a distance back may be negative
numbers, a text may have quotes in it, and a global may have the name of a number. -/
theorem not_all_listings : ¬ ∃ sample ∈ [
      ([], "Object.Value0[0xFFFFFFFF]=1"), ([], "Object.Value0[-0xFFFFFFFB]=1"),
      ([], "Object.Value0=\"x\"=\"y\""), (["score", "5"], "Object.Value0=0x5")],
    ∀ (c c' d : Compiler) (i : Instruction) (next : Nat),
      c.Underway → c.globals = sample.1.map String.toList →
      compileLine 1 ⟨2, Line.strip sample.2.toList⟩ [] c = (.ok (), c') →
      Instruction.decode c'.program.code c.program.code.size = .ok (i, next) → i.opcode.IsPlain →
      d.mode = .inside → d.globals = c.globals → d.Bare →
        compileLine 1 ⟨3, Line.strip i.written⟩ [] d = (.ok (), d.addCode i.words) := by
  rintro ⟨sample, member, all⟩
  have fails (i : Instruction) (next : Nat)
      (checked : (compileLine 1 ⟨2, Line.strip sample.2.toList⟩ [] (bodyAmong sample.1)).1.toOption =
          some () ∧
        (Instruction.decode
          (compileLine 1 ⟨2, Line.strip sample.2.toList⟩ [] (bodyAmong sample.1)).2.program.code
          (bodyAmong sample.1).program.code.size).toOption = some (i, next) ∧ i.opcode.IsPlain ∧
        (compileLine 1 ⟨3, Line.strip i.written⟩ [] (bodyAmong sample.1)).2.program.code ≠
          ((bodyAmong sample.1).addCode i.words).program.code) : False := by
    obtain ⟨compiled, decoded, plain, other⟩ := checked
    have again := all _ _ (bodyAmong sample.1) i next (underway_bodyAmong _) rfl
      (Except.eq_of_toOption compiled) (Except.eq_ok_of_toOption decoded) plain rfl rfl ⟨rfl, rfl⟩
    exact other (congrArg (fun result => result.2.program.code) again)
  simp only [List.mem_cons, List.not_mem_nil, or_false] at member
  rcases member with rfl | rfl | rfl | rfl
  · exact fails ⟨0, .binary .assign, [.element (.object (.value 0)) (.at (.literal (-1))), .integer 1]⟩ 8
      (by decide +kernel)
  · exact fails
      ⟨0, .binary .assign, [.element (.object (.value 0)) (.behind (.literal (-5))), .integer 1]⟩ 8
      (by decide +kernel)
  · exact fails ⟨0, .binary .assign, [.element (.object (.value 0)) .self, .text "x\"=\"y".toList]⟩ 8
      (by decide +kernel)
  · exact fails ⟨0, .binary .assign, [.element (.object (.value 0)) .self, .integer 5]⟩ 6
      (by decide +kernel)

end Compiler

end StageScript
