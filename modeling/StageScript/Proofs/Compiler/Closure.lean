import StageScript.Proofs.Compiler.Layout
import StageScript.Proofs.Compiler.Refusal

/-! # Files leave no loose end
* **`Compiler.bodies`** — the bodies that lines add to a program, as the lines tell;
* **`Between.advances`** — a line adds to the open body, or closes it without a loose end;
* **`compileFile_resolved`** — so the bodies of a file that compiles are all without a loose end, and
  no file is refused for a slot without a target. -/

namespace StageScript

open Stepwise Compiler

/-! ## The bodies of a file -/

/-- The opcode of a line that closes a body. -/
def closingOpcode (text : Text) : Opcode :=
  if Text.sameName text "endsub".toList then .control .stop else .control .endFunction

namespace Compiler

/-- **What a line tells about bodies**: those that it closes, and the blocks of the one that is open
behind it. The second compiler is the one behind the line, and `bs` are the blocks in front of it. -/
def told (c c' : Compiler) (line : Line) (rest : List Line) (bs : List BlockRecord) :
    List BodyRecord × List BlockRecord :=
  match c.mode with
  | .outside => ([], [])
  | .skipping => ([], bs)
  | .inside =>
    if Region.closes line.text then
      ([⟨c.body.entry, c'.program.stop, closingOpcode line.text, bs⟩], [])
    else ([], c.record line rest bs)

/-- **The bodies that lines add to a program**, in their order. `bs` are the blocks of the body that is
open in front of the lines. -/
def bodies (type : Nat) : Compiler → List BlockRecord → List Line → List BodyRecord
  | _, _, [] => []
  | c, bs, line :: rest =>
    if line.text = [] then bodies type c bs rest
    else
      let c' := (compileLine type line rest c).2
      let told := c.told c' line rest bs
      told.1 ++ bodies type c' told.2 rest

/-- The bodies that a file adds to a program. -/
def fileBodies (c : Compiler) (source : Text) (type : Nat) : List BodyRecord :=
  bodies type c.startFile [] (Line.ofSource source)

/-- The place from which on the open body, or else the next one, is. -/
def frontier (c : Compiler) : EntryPoint :=
  match c.mode with
  | .outside => c.program.stop
  | _ => c.body.entry

end Compiler

/-- Bodies that stand one behind the other, from the first place to the second one. -/
def Consecutive : EntryPoint → List BodyRecord → EntryPoint → Prop
  | start, [], stop => start = stop
  | start, r :: rest, stop => r.entry = start ∧ Consecutive r.stop rest stop

theorem Consecutive.append {start middle stop : EntryPoint} {rs rs' : List BodyRecord}
    (h : Consecutive start rs middle) (h' : Consecutive middle rs' stop) :
    Consecutive start (rs ++ rs') stop := by
  induction rs generalizing start with
  | nil =>
    obtain rfl : start = middle := h
    exact h'
  | cons r rest ih => exact ⟨h.1, ih h.2⟩

/-! ## Between two lines -/

/-- A body that is open. Its slots begin inside the jump table, and it is laid out as far as it fits. -/
structure Begun (c : Compiler) (bs : List BlockRecord) : Prop where
  jump : c.body.entry.jump ≤ c.program.jumpTable.size
  slots : ∀ block ∈ c.body.blocks, c.body.entry.jump ≤ block.slot
  laid : c.program.code.size ≤ codeCapacity → ∃ is, Laid c is bs

/-- What holds between two lines. -/
def Between (c : Compiler) (bs : List BlockRecord) : Prop := c.mode ≠ .outside → Begun c bs

/-- A program is added to behind the bodies that are closed. -/
structure Follows (c c' : Compiler) : Prop where
  code : ∃ more, c'.program.code = c.program.code ++ more
  jumps : ∀ slot < c.frontier.jump, c'.program.jumpTable[slot]? = c.program.jumpTable[slot]?
  further : c.frontier.jump ≤ c'.frontier.jump

theorem Follows.refl (c : Compiler) : Follows c c :=
  ⟨⟨#[], Array.append_empty.symm⟩, fun _ _ => rfl, Nat.le_refl _⟩

theorem Follows.trans {c c' c'' : Compiler} (h : Follows c c') (h' : Follows c' c'') :
    Follows c c'' := by
  obtain ⟨more, code⟩ := h.code
  obtain ⟨more', code'⟩ := h'.code
  refine ⟨⟨more ++ more', ?_⟩, fun slot front => ?_, Nat.le_trans h.further h'.further⟩
  · rw [code', code, Array.append_assoc]
  · rw [h'.jumps slot (Nat.lt_of_lt_of_le front h.further), h.jumps slot front]

/-- **What a line does**: the program is added to, and the bodies that it closes stand. -/
structure Advances (c c' : Compiler) (told : List BodyRecord × List BlockRecord) : Prop where
  follows : Follows c c'
  between : Between c' told.2
  stands : ∀ r ∈ told.1, r.stop.jump ≤ c'.frontier.jump ∧ ∃ is, r.Stands c'.program is
  consecutive : Consecutive c.frontier told.1 c'.frontier

section

variable {c c' : Compiler} {bs : List BlockRecord} {line : Line} {rest : List Line}

theorem Begun.congr (h : Begun c bs) (program : c'.program = c.program) (body : c'.body = c.body) :
    Begun c' bs where
  jump := by rw [program, body]; exact h.jump
  slots := by rw [body]; exact h.slots
  laid short := by
    rw [program] at short
    obtain ⟨is, laid⟩ := h.laid short
    exact ⟨is, laid.congr (congrArg Program.code program) (congrArg Program.jumpTable program) body⟩

theorem frontier_of_outside (mode : c.mode = .outside) : c.frontier = c.program.stop := by
  rw [Compiler.frontier, mode]

theorem frontier_of_open (mode : c.mode ≠ .outside) : c.frontier = c.body.entry := by
  rw [Compiler.frontier]
  split
  · next outside => exact absurd outside mode
  · rfl

/-- A line of a body that does not close it. -/
theorem advances_of_grows (mode : c.mode ≠ .outside) (mode' : c'.mode ≠ .outside)
    (begun : Begun c' bs) (entry : c'.body.entry = c.body.entry)
    (code : ∃ more, c'.program.code = c.program.code ++ more)
    (jumps : ∀ slot < c.body.entry.jump,
      c'.program.jumpTable[slot]? = c.program.jumpTable[slot]?) : Advances c c' ([], bs) := by
  have same : c'.frontier = c.frontier := by
    rw [frontier_of_open mode, frontier_of_open mode', entry]
  refine ⟨⟨code, ?_, Nat.le_of_eq (congrArg EntryPoint.jump same.symm)⟩, fun _ => begun,
    List.forall_mem_nil _, same.symm⟩
  rw [frontier_of_open mode]
  exact jumps

/-! ## Lines outside bodies -/

/-- **A line outside bodies** adds neither to the code nor to the jump table. -/
theorem effect_of_outside {type : Nat} {text : Text} (h : Outside c type text c') :
    c'.program.code = c.program.code ∧ c'.program.jumpTable = c.program.jumpTable ∧
      (c'.mode = c.mode ∨ c'.mode = .inside ∧ c'.body = c.begun.body) := by
  cases h with
  | named => exact ⟨rfl, rfl, .inl rfl⟩
  | sub =>
    obtain ⟨code, jumps, -⟩ := Program.setEntry_eq c.begun.program type _ (some c.begun.body.entry)
    exact ⟨code, jumps, .inr ⟨rfl, rfl⟩⟩
  | declare _ _ _ known =>
    obtain rfl | rfl := known
    · exact ⟨rfl, rfl, .inl rfl⟩
    · exact ⟨rfl, rfl, .inl rfl⟩
  | define _ _ _ known =>
    obtain rfl | rfl := known
    · exact ⟨rfl, rfl, .inr ⟨rfl, rfl⟩⟩
    · exact ⟨rfl, rfl, .inr ⟨rfl, rfl⟩⟩
  | none => exact ⟨rfl, rfl, .inl rfl⟩

theorem Outside.advances {type : Nat} {text : Text} (h : Outside c type text c')
    (mode : c.mode = .outside) : Advances c c' ([], []) := by
  -- A line outside either opens a body, which is empty, or adds names only.
  obtain ⟨code, jumps, kept | ⟨opened, body⟩⟩ := effect_of_outside h
  · have same : c'.frontier = c.frontier := by
      rw [frontier_of_outside mode, frontier_of_outside (kept.trans mode), Program.stop, Program.stop,
        code, jumps]
    refine ⟨⟨⟨#[], ?_⟩, ?_, Nat.le_of_eq (congrArg EntryPoint.jump same.symm)⟩, ?_,
      List.forall_mem_nil _, same.symm⟩
    · rw [code, Array.append_empty]
    · rw [jumps]
      exact fun _ _ => rfl
    · intro opened
      exact absurd (kept.trans mode) opened
  · have open_ : c'.mode ≠ .outside := by rw [opened]; decide
    have same : c'.frontier = c.frontier := by
      rw [frontier_of_outside mode, frontier_of_open open_, body]
      rfl
    refine ⟨⟨⟨#[], ?_⟩, ?_, Nat.le_of_eq (congrArg EntryPoint.jump same.symm)⟩, fun _ => ⟨?_, ?_, ?_⟩,
      List.forall_mem_nil _, same.symm⟩
    · rw [code, Array.append_empty]
    · rw [jumps]
      exact fun _ _ => rfl
    · rw [body, jumps]
      exact Nat.le_refl _
    · rw [body]
      exact List.forall_mem_nil _
    · exact fun _ => ⟨[], (Laid.begun c).congr code jumps body⟩

/-! ## Lines of bodies -/

/-- **A line of a body** that is neither a closing line nor about a platform. -/
theorem Begun.stated (h : Begun c bs) (noPlatform : Directive.platform? line.text = none)
    (noEnd : Directive.endsPlatform line.text = false) (stated : Stated c line.text none c') :
    Begun c' (c.record line rest bs) := by
  have grows := stated.grows h.jump h.slots
  refine ⟨?_, fun block member => ?_, fun short => ?_⟩
  · rw [grows.entry]
    exact Nat.le_trans h.jump stated.size_le
  · rw [grows.entry]
    rcases stated.slot_eq member with old | new
    · exact h.slots block old
    · exact new ▸ h.jump
  · obtain ⟨more, code⟩ := grows.code
    obtain ⟨is, laid⟩ := h.laid (by rw [code, Array.size_append] at short; omega)
    exact laid.stated noPlatform noEnd stated short

/-- **A switch**, whose labels have been looked up. -/
theorem Begun.primed {header : Nat} (h : Begun c bs)
    (noPlatform : Directive.platform? line.text = none)
    (noEnd : Directive.endsPlatform line.text = false)
    (stated : Stated c line.text (some header) c') :
    Begun (c'.primed header (Priming.scan c.aliases rest 0 line.number LabelRange.start).range)
      (c.record line rest bs) := by
  have grows := stated.grows h.jump h.slots
  refine ⟨?_, fun block member => ?_, fun short => ?_⟩
  · rw [body_primed, grows.entry, size_primed]
    exact Nat.le_trans h.jump (Nat.le_add_right_of_le stated.size_le)
  · rw [body_primed] at member ⊢
    rw [grows.entry]
    rcases stated.slot_eq member with old | new
    · exact h.slots block old
    · exact new ▸ h.jump
  · obtain ⟨more, code⟩ := grows.code
    rw [code_primed] at short
    obtain ⟨is, laid⟩ := h.laid (by rw [code, Array.size_append] at short; omega)
    exact laid.primed noPlatform noEnd stated short

/-- **The line that closes a body** leaves it without a loose end. -/
theorem Begun.closes {op : Opcode} (h : Begun c bs) (mode : c.mode ≠ .outside)
    (bare : c.body.blocks = []) (room : c.program.code.size < codeCapacity)
    (closes : op = .control .stop ∨ op = .control .endFunction) :
    Advances c ((c.addCode [op.word]).withMode .outside)
      ([⟨c.body.entry, ((c.addCode [op.word]).withMode .outside).program.stop, op, bs⟩], []) := by
  have entry := frontier_of_open mode
  have known : op ∈ Opcode.all ∧ op.arity = 0 := by
    rcases closes with rfl | rfl <;> decide +kernel
  obtain ⟨is, laid⟩ := h.laid (Nat.le_of_lt room)
  refine ⟨⟨⟨_, rfl⟩, fun _ _ => rfl, ?_⟩, fun opened => absurd rfl opened,
    List.forall_mem_singleton.2 ⟨Nat.le_refl _, _, laid.stands bare known.1 known.2 room⟩,
    entry.symm, rfl⟩
  rw [entry]
  exact h.jump

/-- A line about a platform says nothing about blocks. -/
theorem record_of_platform
    (platform : ((Directive.platform? line.text).isSome || Directive.endsPlatform line.text) = true) :
    c.record line rest bs = bs := by
  rw [record, if_pos platform]

/-- **A line of a body** that opens no switch: it closes the body or goes on in it. -/
theorem Begun.inside (h : Begun c bs) (mode : c.mode = .inside)
    (inside : Inside c line.text none c') : Advances c c' (c.told c' line rest bs) := by
  have opened : c.mode ≠ .outside := by rw [mode]; decide
  rw [told, mode]
  dsimp only
  cases inside with
  | @closes op bare room keyword =>
    rcases keyword with ⟨endsub, rfl⟩ | ⟨noSub, endfunction, rfl⟩
    · rw [Region.closes, endsub, Bool.true_or, if_pos rfl, closingOpcode, if_pos endsub]
      exact h.closes opened bare room (.inl rfl)
    · rw [Region.closes, endfunction, Bool.or_true, if_pos rfl, closingOpcode, noSub,
        if_neg Bool.false_ne_true]
      exact h.closes opened bare room (.inr rfl)
  | @platform named noKeyword read =>
    rw [noKeyword, if_neg Bool.false_ne_true, record_of_platform (by rw [read]; rfl)]
    split
    · exact advances_of_grows opened opened h rfl ⟨#[], Array.append_empty.symm⟩ fun _ _ => rfl
    · have left : Mode.skipping ≠ .outside := by decide
      exact advances_of_grows opened left (h.congr rfl rfl) rfl ⟨#[], Array.append_empty.symm⟩
        fun _ _ => rfl
  | endsPlatform noKeyword noPlatform read =>
    rw [noKeyword, if_neg Bool.false_ne_true, record_of_platform (by rw [read, Bool.or_true])]
    exact advances_of_grows opened opened h rfl ⟨#[], Array.append_empty.symm⟩ fun _ _ => rfl
  | other noKeyword noPlatform noEnd stated =>
    rw [noKeyword, if_neg Bool.false_ne_true]
    have grows := stated.grows h.jump h.slots
    exact advances_of_grows opened (grows.mode ▸ opened) (h.stated noPlatform noEnd stated)
      grows.entry grows.code grows.jumps

/-- **A line of a body** that opens a switch. -/
theorem Begun.inside_primed {header : Nat} (h : Begun c bs) (mode : c.mode = .inside)
    (inside : Inside c line.text (some header) c') {behind : Compiler}
    (looked : behind =
      c'.primed header (Priming.scan c'.aliases rest 0 line.number LabelRange.start).range) :
    Advances c behind (c.told behind line rest bs) := by
  have opened : c.mode ≠ .outside := by rw [mode]; exact nofun
  rw [told, mode]
  dsimp only
  cases inside with
  | other noKeyword noPlatform noEnd stated =>
    rw [noKeyword, if_neg Bool.false_ne_true]
    have stays := stated.grows h.jump h.slots
    rw [stays.aliases] at looked
    have header_le : c.body.entry.jump ≤ header := by
      cases stated
      exact h.jump
    have grows := stays.primed (Nat.le_trans h.jump stated.size_le) header_le
      (Priming.scan c.aliases rest 0 line.number LabelRange.start).range
    rw [← looked] at grows
    have begun := @Begun.primed _ _ _ line rest _ h noPlatform noEnd stated
    rw [← looked] at begun
    exact advances_of_grows opened (grows.mode ▸ opened) begun grows.entry grows.code grows.jumps

/-- **A line that compiles** adds to the program and leaves no loose end. -/
theorem Between.advances {type : Nat} (h : Between c bs)
    (compiled : compileLine type line rest c = (.ok (), c')) :
    Advances c c' (c.told c' line rest bs) := by
  cases lined_of_compileLine compiled with
  | outside mode did =>
    rw [told, mode]
    exact Outside.advances did mode
  | skipped mode =>
    have opened : c.mode ≠ .outside := by rw [mode]; decide
    rw [told, mode]
    dsimp only
    split
    · have still : Mode.inside ≠ Mode.outside := by decide
      exact advances_of_grows opened still ((h opened).congr rfl rfl) rfl
        ⟨#[], Array.append_empty.symm⟩ fun _ _ => rfl
    · exact advances_of_grows opened opened (h opened) rfl ⟨#[], Array.append_empty.symm⟩
        fun _ _ => rfl
  | inside mode did => exact (h (by rw [mode]; decide)).inside mode did
  | primed mode did => exact (h (by rw [mode]; decide)).inside_primed mode did rfl

/-! ## Files -/

/-- What some lines do and what the lines behind them do. -/
theorem Advances.trans {c'' : Compiler} {rs rs' : List BodyRecord} {bs' : List BlockRecord}
    (h : Advances c c' (rs, bs)) (h' : Advances c' c'' (rs', bs')) :
    Advances c c'' (rs ++ rs', bs') where
  follows := h.follows.trans h'.follows
  between := h'.between
  stands r member := by
    rcases List.mem_append.1 member with old | new
    · obtain ⟨front, is, stands⟩ := h.stands r old
      exact ⟨Nat.le_trans front h'.follows.further, is, stands.mono h'.follows.code fun slot below =>
        h'.follows.jumps slot (Nat.lt_of_lt_of_le below front)⟩
    · exact h'.stands r new
  consecutive := h.consecutive.append h'.consecutive

/-- **Lines that compile** add to the program and leave no loose end. -/
theorem Between.lines {type last : Nat} {lines : List Line} (h : Between c bs)
    (compiled : compileLines type last lines c = (.ok (), c')) :
    c'.mode = .outside ∧ Advances c c' (bodies type c bs lines, []) := by
  induction lines generalizing c bs last with
  | nil =>
    obtain ⟨mode, rfl⟩ := eq_of_compileLines_nil compiled
    exact ⟨mode, .refl c', fun opened => absurd mode opened, List.forall_mem_nil _, rfl⟩
  | cons line rest ih =>
    rw [bodies]
    by_cases empty : line.text = []
    · rw [compileLines_of_empty empty] at compiled
      rw [if_pos empty]
      exact ih h compiled
    · obtain ⟨c₁, first, others⟩ := exists_of_compileLines empty compiled
      have step := h.advances first
      obtain ⟨mode, behind⟩ := ih step.between others
      rw [if_neg empty, first]
      exact ⟨mode, step.trans behind⟩

/-! ## Refusals -/

/-- **The line that closes a body** finds no slot without a target. -/
theorem Begun.spares_closeBody {op : Opcode} {reason : CompileReason} (h : Begun c bs)
    (failed : closeBody op c = (.error reason, c')) : reason.isUnresolved = false := by
  rw [closeBody, bind_apply, get_apply] at failed
  dsimp only at failed
  cases bare : c.body.blocks with
  | cons block others =>
    rw [bare] at failed
    obtain rfl := Except.error.inj (Prod.mk.inj failed).1
    rfl
  | nil =>
    rw [bare] at failed
    dsimp only at failed
    rcases first : emit [op.word] c with ⟨reason' | ⟨⟩, c₁⟩
    · rw [bind_apply_of_error first] at failed
      obtain rfl := Except.error.inj (Prod.mk.inj failed).1
      exact CompileReason.isUnresolved_of_isLayout ((spares_emit _).spared first)
    · rw [bind_apply_of_ok first, bind_apply, get_apply] at failed
      obtain ⟨rfl, -⟩ := emit_eq_ok first
      -- A body whose blocks are all closed is laid out, and no slot of it is without a target.
      obtain ⟨is, laid⟩ := h.laid (Nat.le_of_lt (emit_room first))
      have resolved : (c.addCode [op.word]).unresolvedSlot? = none :=
        laid.unresolvedSlot?_eq_none bare (Nat.le_of_lt (emit_room first))
      dsimp only at failed
      rw [resolved] at failed
      cases (Prod.mk.inj failed).1

/-- The line that closes a body does nothing else. -/
theorem insideLine_of_closes {text : Text} (closes : Region.closes text = true) :
    insideLine text = do
      closeBody (closingOpcode text)
      return none := by
  unfold insideLine closingOpcode
  by_cases endsub : Text.sameName text "endsub".toList = true
  · rw [if_pos endsub, if_pos endsub]
  · rw [Region.closes, Bool.eq_false_iff.2 endsub, Bool.false_or] at closes
    rw [if_neg endsub, if_neg endsub, if_pos closes]

/-- **No line of a body** is refused for a slot without a target. -/
theorem Begun.spares_insideLine {text : Text} {reason : CompileReason} (h : Begun c bs)
    (failed : insideLine text c = (.error reason, c')) : reason.isUnresolved = false := by
  by_cases closes : Region.closes text = true
  · rw [insideLine_of_closes closes] at failed
    rcases first : closeBody (closingOpcode text) c with ⟨reason' | ⟨⟩, c₁⟩
    · rw [bind_apply_of_error first] at failed
      obtain rfl := Except.error.inj (Prod.mk.inj failed).1
      exact h.spares_closeBody first
    · rw [bind_apply_of_ok first] at failed
      cases (Prod.mk.inj failed).1
  · have spares : Spares CompileReason.isUnresolved (insideLine text) :=
      Compiler.spares_insideLine (fun _ => CompileReason.isUnresolved_of_isLayout)
        (fun closing => absurd closing closes) fun label _ => spares_bindCase label
    exact spares.spared failed

/-- **No line** is refused for a slot without a target. -/
theorem Between.spares_compileLine {type : Nat} {p : Problem} (h : Between c bs)
    (failed : compileLine type line rest c = (.error p, c')) : p.reason.isUnresolved = false :=
  Compiler.spares_compileLine (fun _ => CompileReason.isUnresolved_of_isLayout)
    (fun mode {_ _} inside => (h (by rw [mode]; exact nofun)).spares_insideLine inside) failed

/-- **No lines** are refused for a slot without a target. -/
theorem Between.spares_compileLines {type last : Nat} {lines : List Line} {p : Problem}
    (h : Between c bs) (failed : compileLines type last lines c = (.error p, c')) :
    p.reason.isUnresolved = false := by
  induction lines generalizing c bs last with
  | nil =>
    exact CompileReason.isUnresolved_of_isLayout ((spares_compileLines_nil type last).spared failed)
  | cons line rest ih =>
    rw [compileLines] at failed
    by_cases empty : line.text = []
    · rw [if_neg (not_not_intro empty)] at failed
      exact ih h failed
    · rw [if_pos empty] at failed
      rcases first : compileLine type line rest c with ⟨p' | ⟨⟩, c₁⟩
      · rw [bind_apply_of_error first] at failed
        obtain rfl := Except.error.inj (Prod.mk.inj failed).1
        exact h.spares_compileLine first
      · rw [bind_apply_of_ok first] at failed
        exact ih (h.advances first).between failed

/-! ## Bodies of files -/

theorem between_startFile (c : Compiler) : Between c.startFile [] := fun opened => absurd rfl opened

/-- **The bodies of a file that compiles** stand one behind the other in the program. -/
theorem stands_of_compileFile {path : String} {source : Text} {type : Nat}
    (compiled : compileFile path source type c = (.ok (), c')) :
    Consecutive c.program.stop (c.fileBodies source type) c'.program.stop ∧
      ∀ r ∈ c.fileBodies source type, ∃ is, r.Stands c'.program is := by
  obtain ⟨mode, advances⟩ := (between_startFile c).lines (compileFile_eq_ok_iff.1 compiled).2
  refine ⟨?_, fun r member => (advances.stands r member).2⟩
  rw [← frontier_of_outside mode]
  exact advances.consecutive

/-- **No file** is refused for a slot without a target. -/
theorem reason_ne_of_compileFile {path : String} {source : Text} {type : Nat} {e : CompileError}
    (failed : compileFile path source type c = (.error e, c')) (slot : Nat) :
    e.reason ≠ .unresolvedSlot slot := by
  intro same
  obtain rfl | ⟨p, lines, rfl⟩ := exists_of_compileFile_eq_error failed
  · cases same
  · have reason : p.reason = .unresolvedSlot slot := same
    have spared := (between_startFile c).spares_compileLines lines
    rw [reason] at spared
    cases spared

end

/-- **Files leave no loose end.** Where a file compiles, its bodies stand one behind the other and make
up what was added to the program: each of them reads instruction after instruction to the one that
closes it, and its slots lead to these instructions. No file is refused for a slot without a target. -/
theorem compileFile_resolved (path : String) (source : Text) (type : Nat) (c : Compiler) :
    match compileFile path source type c with
    | (.ok _, c') =>
      Consecutive c.program.stop (c.fileBodies source type) c'.program.stop ∧
        ∀ r ∈ c.fileBodies source type, ∃ is, r.Resolved c'.program is
    | (.error e, _) => ∀ slot, e.reason ≠ .unresolvedSlot slot := by
  rcases answer : compileFile path source type c with ⟨e | ⟨⟩, c'⟩
  · exact reason_ne_of_compileFile answer
  · obtain ⟨consecutive, stand⟩ := stands_of_compileFile answer
    refine ⟨consecutive, fun r member => ?_⟩
    obtain ⟨is, stands⟩ := stand r member
    exact ⟨is, stands.resolved⟩

theorem compileFile_resolved_endless : ∃ c', compileFile "" endless 1 freshCompiler = (.ok (), c') ∧
    (freshCompiler.fileBodies endless 1).map (·.blocks.map (·.kind)) = [[.whileBlock]] ∧
      ∀ r ∈ freshCompiler.fileBodies endless 1, ∃ is, r.Resolved c'.program is := by
  obtain ⟨c', compiled⟩ : ∃ c', compileFile "" endless 1 freshCompiler = (.ok (), c') :=
    ⟨_, Except.eq_of_toOption (by decide +kernel)⟩
  have resolved := compileFile_resolved "" endless 1 freshCompiler
  rw [compiled] at resolved
  exact ⟨c', compiled, by decide +kernel, resolved.2⟩

end StageScript
