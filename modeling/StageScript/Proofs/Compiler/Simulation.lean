import StageScript.Proofs.Compiler.Transition

/-! # Code does what statements say
Where a statement stands in a body, a run of the machine and a run of the statement are the same.
* **`Statement.Runs.reaches`** — what a run of a statement comes to, the machine comes to;
* **`Statement.exists_runs`** — what the machine comes to, unless the step limit cuts it off, a run of
  the statement comes to;
* **`Statement.Governs`** — the runs of the machine from an entry point are those of a statement;
* **`Statement.Fills.governs`** — the statement that a sub-script says governs the runs of the
  sub-script. -/

namespace StageScript

open Stepwise Statement

variable {p : Program} {activation : Activation} {bodies : Nat → Option Statement}

/-! ## Where runs of statements get -/

/-- **Where the machine gets** that begins at an offset of a body and does what a statement up to
another offset says. `around` is the number of the switch around the statement, and `exit` is the
offset behind that switch. -/
def Reaches (p : Program) (activation : Activation) (r : BodyRecord) (around : Option Nat)
    (exit : Nat) (branches : List Word) (calls : List Position) (here stop : Nat) (m : Machine)
    (k : Nat) (done : List Action) (m' : Machine) : Ending → Prop
  | .on => ∃ n k', Leads p activation n (r.position here) (m.amid branches calls k) done
      (r.position stop) (m'.amid branches calls k')
  | .left => around.isSome = true ∧ ∃ n k', Leads p activation n (r.position here)
      (m.amid branches calls k) done (r.position exit) (m'.amid branches.tail calls k')
  | .failed fault => ∃ n branches' calls' k', Ends p activation n (r.position here)
      (m.amid branches calls k) ⟨done, .error fault, m'.amid branches' calls' k'⟩

namespace Reaches

variable {r : BodyRecord} {around inner : Option Nat} {exit here middle first stop : Nat}
  {branches : List Word} {calls : List Position} {m m' m'' : Machine} {n k k' : Nat}
  {done done' : List Action} {ending : Ending}

/-- What is in front of a statement is done before it. -/
theorem after (before : Leads p activation n (r.position here) (m.amid branches calls k) done
      (r.position middle) (m'.amid branches calls k'))
    (h : Reaches p activation r around exit branches calls middle stop m' k' done' m'' ending) :
    Reaches p activation r around exit branches calls here stop m k (done ++ done') m'' ending := by
  cases ending with
  | on =>
    obtain ⟨n', k'', leads⟩ := h
    exact ⟨_, k'', before.trans leads⟩
  | left =>
    obtain ⟨inside, n', k'', leads⟩ := h
    exact ⟨inside, _, k'', before.trans leads⟩
  | failed fault =>
    obtain ⟨n', branches', calls', k'', ends⟩ := h
    exact ⟨_, branches', calls', k'', before.ends ends⟩

/-- **A block that is no switch** is opened, what is in it is done, and it is closed; so are calls. -/
theorem inside {r' : BodyRecord} {exit' : Nat} {branches' : List Word} {calls' : List Position}
    (opened : Leads p activation n (r.position here) (m.amid branches calls k) []
      (r'.position first) (m'.amid branches' calls' k'))
    (h : Reaches p activation r' none exit' branches' calls' first middle m' k' done m'' ending)
    (closed : ∀ k, Leads p activation 1 (r'.position middle) (m''.amid branches' calls' k) []
      (r.position stop) (m''.amid branches calls (k + 1))) :
    Reaches p activation r around exit branches calls here stop m k done m'' ending := by
  cases ending with
  | on =>
    obtain ⟨n', k'', leads⟩ := h
    have whole := (opened.trans leads).trans (closed k'')
    rw [List.nil_append, List.append_nil] at whole
    exact ⟨_, _, whole⟩
  | left => exact absurd h.1 Bool.false_ne_true
  | failed fault =>
    obtain ⟨n', branches'', calls'', k'', ends⟩ := h
    exact ⟨_, branches'', calls'', k'', opened.ends ends⟩

/-- **A switch** is opened, what is in it is done, and it is closed. The run goes on at the same place
when the switch is left instead. -/
theorem switch {block : Nat} {w : Word}
    (opened : Leads p activation n (r.position here) (m.amid branches calls k) []
      (r.position first) (m'.amid (w :: branches) calls k'))
    (h : Reaches p activation r (some block) stop (w :: branches) calls first middle m' k' done m''
      ending)
    (closed : ∀ k, Leads p activation 1 (r.position middle) (m''.amid (w :: branches) calls k) []
      (r.position stop) (m''.amid branches calls (k + 1))) :
    Reaches p activation r around exit branches calls here stop m k done m'' ending.close := by
  cases ending with
  | on =>
    obtain ⟨n', k'', leads⟩ := h
    have whole := (opened.trans leads).trans (closed k'')
    rw [List.nil_append, List.append_nil] at whole
    exact ⟨_, _, whole⟩
  | left =>
    obtain ⟨-, n', k'', leads⟩ := h
    exact ⟨_, k'', opened.trans leads⟩
  | failed fault =>
    obtain ⟨n', branches', calls', k'', ends⟩ := h
    exact ⟨_, branches', calls', k'', opened.ends ends⟩

/-- Where a run fails it does not matter what comes behind. -/
theorem failed {fault : Fault}
    (ends : Ends p activation n (r.position here) (m.amid branches calls k)
      ⟨done, .error fault, m'.amid branches calls k'⟩) :
    Reaches p activation r around exit branches calls here stop m k done m' (.failed fault) :=
  ⟨n, branches, calls, k', ends⟩

end Reaches

/-- A switch around a statement is the innermost block, and the offset is the one behind it. -/
def Exits (r : BodyRecord) (around : Option Nat) (exit : Nat) (branches : List Word) : Prop :=
  ∀ block, around = some block → branches = Word.ofNat block :: branches.tail ∧
    ∃ first marks stop, HasBlock r.blocks .switchBlock block first marks stop ∧ exit = stop + 1

theorem Exits.none (r : BodyRecord) (exit : Nat) (branches : List Word) :
    Exits r none exit branches := fun _ no => nomatch no

/-! ## From statements to code -/

/-- **What a run of a statement comes to, the machine comes to** where the statement stands. -/
theorem Statement.Runs.reaches {blocks depth : Nat} {s : Statement} {m m' : Machine}
    {done : List Action} {ending : Ending} (links : p.Links bodies)
    (runs : s.Runs bodies activation blocks depth m done ending m') {r : BodyRecord}
    {is : List Instruction} {around : Option Nat} {exit o k : Nat} {branches : List Word}
    {calls : List Position} (stands : r.Stands p is) (sits : s.Sits is r.blocks r.entry.code around o)
    (open_ : branches.length = blocks) (called : calls.length = depth)
    (exits : Exits r around exit branches) :
    Reaches p activation r around exit branches calls o (o + s.length) m k done m' ending := by
  induction runs generalizing r is around exit o k branches calls with
  | skip => exact ⟨0, k, Leads.refl _ _⟩
  | case => exact ⟨0, k, Leads.refl _ _⟩
  | fallback => exact ⟨0, k, Leads.refl _ _⟩
  | seq _ _ before after =>
    obtain ⟨n, k', leads⟩ := @before r is around exit o k branches calls stands sits.1 open_ called exits
    rw [length, ← Nat.add_assoc]
    exact Reaches.after leads (after stands sits.2 open_ called exits)
  | @cut blocks depth first rest m m' done ending _ ends before =>
    have cut := @before r is around exit o k branches calls stands sits.1 open_ called exits
    cases ending with
    | on => exact absurd rfl ends
    | left => exact cut
    | failed fault => exact cut
  | @act blocks depth op arguments m m' result did =>
    cases result with
    | ok => exact ⟨1, k + 1, stands.leads_act sits.2 sits.1 did⟩
    | error fault => exact .failed (stands.ends_act sits.2 sits.1 did)
  | uncalled failed =>
    subst called
    exact .failed (stands.ends_enter links sits failed)
  | @call blocks depth function body m m' m'' done ending entered inside ih =>
    subst called
    obtain ⟨entry, ⟨r', is', rfl, stands', sits', last⟩, leads⟩ :=
      stands.leads_enter branches k links sits entered
    rw [length]
    refine Reaches.inside leads (ih stands' sits' open_ rfl (Exits.none _ 0 _)) fun k' => ?_
    rw [Nat.zero_add]
    exact stands'.leads_endFunction last _
  | untested failed =>
    subst open_
    exact .failed (stands.ends_test sits.1 failed)
  | @branch blocks depth block comparison a b yes divided no m m' m'' holds done ending tested
      inside ih =>
    subst open_
    obtain ⟨member, yesSits, noSits⟩ := sits
    cases divided with
    | true =>
      obtain ⟨middle, noSits, last, opens⟩ := noSits
      have opened := stands.leads_test calls k member opens rfl tested
      have behind : o + (Statement.branch block comparison a b yes true no).length =
          o + width (.ifTest comparison) (testArguments block a b) + yes.length + 1 + no.length + 1 := by
        rw [length, if_pos rfl]
        omega
      rw [behind]
      cases holds with
      | true =>
        -- behind the first part the `else` leads to the end
        exact Reaches.inside opened (ih stands yesSits rfl called (Exits.none _ 0 _))
          fun k' => stands.leads_elseBranch middle opens
      | false =>
        exact Reaches.inside opened (ih stands noSits rfl called (Exits.none _ 0 _))
          fun k' => stands.leads_endIf last (Word.ofNat block)
    | false =>
      obtain ⟨rfl, last, opens⟩ := noSits
      have opened := stands.leads_test calls k member opens rfl tested
      rw [length, if_neg Bool.false_ne_true, Nat.add_zero, ← Nat.add_assoc, ← Nat.add_assoc]
      cases holds with
      | true =>
        exact Reaches.inside opened (ih stands yesSits rfl called (Exits.none _ 0 _))
          fun k' => stands.leads_endIf last (Word.ofNat block)
      | false =>
        exact Reaches.inside opened
          (ih (o := o + width _ _ + yes.length) stands trivial rfl called (Exits.none _ 0 _))
          fun k' => stands.leads_endIf last (Word.ofNat block)
  | unrepeated failed =>
    subst open_
    exact .failed (stands.ends_again sits.1 failed)
  | finished tested =>
    subst open_
    rw [length, ← Nat.add_assoc, ← Nat.add_assoc]
    exact ⟨1, k + 1, stands.leads_finished sits.1 sits.2.2.2 tested⟩
  | @loop blocks depth block comparison a b body m m' m'' m''' done done' ending tested inside others
      ih ih' =>
    subst open_
    obtain ⟨test, bodySits, again, opens⟩ := sits
    have opened := stands.leads_again calls k test tested
    have back : Reaches p activation r around exit branches calls o o m k done m'' .on :=
      Reaches.inside opened (ih stands bodySits rfl called (Exits.none _ 0 _)) fun k' =>
        stands.leads_loop again opens
    obtain ⟨n, k', leads⟩ := back
    exact Reaches.after leads (ih' stands ⟨test, bodySits, again, opens⟩ rfl called exits)
  | @broken blocks depth block comparison a b body m m' m'' done ending tested inside ends ih =>
    subst open_
    obtain ⟨test, bodySits, again, opens⟩ := sits
    have opened := stands.leads_again calls k test tested
    have back : Reaches p activation r around exit branches calls o o m k done m'' ending :=
      Reaches.inside opened (ih stands bodySits rfl called (Exits.none _ 0 _)) fun k' =>
        stands.leads_loop again opens
    cases ending with
    | on => exact absurd rfl ends
    | left => exact back
    | failed fault => exact back
  | unselected failed =>
    subst open_
    exact .failed (stands.ends_select sits.1 failed)
  | @switch blocks depth block a body m m' m'' value done ending selected inside ih =>
    subst open_
    obtain ⟨member, once, bodySits, last, opens⟩ := sits
    obtain ⟨record, within, kind, number, opened, marks, closing⟩ := opens
    obtain ⟨place, destination, follows⟩ := bodySits.entered once marks closing value
    have entered := stands.leads_select calls k member within kind number
      destination selected
    have exits' : Exits r (some block) (o + width (.control .switch) (switchArguments block a) +
        body.length + 1) (Word.ofNat block :: branches) := by
      intro _ same
      cases same
      exact ⟨rfl, o, _, _, ⟨record, within, kind, number, opened, marks, closing⟩, rfl⟩
    have reaches := ih stands follows.sits
      (show (Word.ofNat block :: branches).length = branches.length + 1 from rfl) called exits'
      (k := k + 1)
    rw [length, ← Nat.add_assoc, ← Nat.add_assoc]
    rw [follows.ends] at reaches
    exact Reaches.switch entered reaches fun k' => stands.leads_endSwitch last _
  | leave =>
    obtain ⟨around_, member⟩ := sits
    obtain ⟨block, rfl⟩ := Option.isSome_iff_exists.1 around_
    obtain ⟨top, first, marks, stop, opens, rfl⟩ := exits block rfl
    refine ⟨rfl, 1, k + 1, ?_⟩
    rw [top]
    exact stands.leads_leave member opens

/-! ## From code to statements -/

/-- **What the machine comes to, a run of the statement comes to**, unless the step limit cuts the run
of the machine off. -/
theorem Statement.exists_runs (links : p.Links bodies) {fuel : Nat} {s : Statement} {r : BodyRecord}
    {is : List Instruction} {around : Option Nat} {exit o k : Nat} {branches : List Word}
    {calls : List Position} {m : Machine} (stands : r.Stands p is)
    (sits : s.Sits is r.blocks r.entry.code around o) (exits : Exits r around exit branches)
    (whole : ¬ (traceFrom p activation fuel (r.position o) (m.amid branches calls k)).IsCut) :
    ∃ done ending m', s.Runs bodies activation branches.length calls.length m done ending m' := by
  -- a statement that is not a part of another one begins with fewer steps left
  induction fuel using Nat.strongRecOn generalizing s r is around exit o k branches calls m with
  | ind fuel few =>
  induction s generalizing r is around exit o k branches calls m with
  | skip => exact ⟨_, _, _, .skip⟩
  | case => exact ⟨_, _, _, .case⟩
  | fallback => exact ⟨_, _, _, .fallback⟩
  | leave => exact ⟨_, _, _, .leave⟩
  | act => exact ⟨_, _, _, .act rfl⟩
  | seq first rest ihFirst ihRest =>
    obtain ⟨done, ending, m', before⟩ := ihFirst stands sits.1 exits whole
    cases ending with
    | on =>
      obtain ⟨n, k', leads⟩ := before.reaches links stands sits.1 rfl rfl exits (k := k)
      obtain ⟨fuel', total, whole'⟩ := leads.exists_rest whole
      have after : ∃ done ending m'', rest.Runs bodies activation branches.length calls.length m'
          done ending m'' := by
        rcases Nat.eq_zero_or_pos n with rfl | some
        · rw [Nat.zero_add] at total
          exact ihRest stands sits.2 exits (total ▸ whole')
        · exact few fuel' (by omega) stands sits.2 exits whole'
      obtain ⟨_, _, _, after⟩ := after
      exact ⟨_, _, _, .seq before after⟩
    | left => exact ⟨_, _, _, .cut before nofun⟩
    | failed fault => exact ⟨_, _, _, .cut before nofun⟩
  | call function =>
    rcases entered : enter bodies activation.object calls.length function m with ⟨fault | body, m'⟩
    · exact ⟨_, _, _, .uncalled entered⟩
    · obtain ⟨entry, ⟨r', is', rfl, stands', sits', -⟩, leads⟩ :=
        stands.leads_enter branches k links sits entered
      obtain ⟨fuel', total, whole'⟩ := leads.exists_rest whole
      obtain ⟨_, _, _, inside⟩ := few fuel' (by omega) stands' sits' (Exits.none r' 0 _) whole'
      exact ⟨_, _, _, .call entered inside⟩
  | branch block comparison a b yes divided no =>
    rcases tested : test activation.object branches.length block comparison a b m with
      ⟨fault | holds, m'⟩
    · exact ⟨_, _, _, .untested tested⟩
    obtain ⟨member, yesSits, noSits⟩ := sits
    -- the part that is chosen stands where the test leads
    obtain ⟨first, opened, partSits⟩ : ∃ first,
        Leads p activation 1 (r.position o) (m.amid branches calls k) [] (r.position first)
          (m'.amid (Word.ofNat block :: branches) calls (k + 1)) ∧
        (if holds then yes else no).Sits is r.blocks r.entry.code none first := by
      cases divided with
      | true =>
        obtain ⟨-, noSits, -, opens⟩ := noSits
        have opened := stands.leads_test calls k member opens rfl tested
        cases holds with
        | true => exact ⟨_, opened, yesSits⟩
        | false => exact ⟨_, opened, noSits⟩
      | false =>
        obtain ⟨rfl, -, opens⟩ := noSits
        have opened := stands.leads_test calls k member opens rfl tested
        cases holds with
        | true => exact ⟨_, opened, yesSits⟩
        | false => exact ⟨_, opened, trivial⟩
    obtain ⟨fuel', total, whole'⟩ := opened.exists_rest whole
    obtain ⟨_, _, _, inside⟩ := few fuel' (by omega) stands partSits (Exits.none r 0 _) whole'
    exact ⟨_, _, _, .branch tested inside⟩
  | loop block comparison a b body =>
    rcases tested : again activation.object branches.length block comparison a b m with
      ⟨fault | holds, m'⟩
    · exact ⟨_, _, _, .unrepeated tested⟩
    obtain ⟨test, bodySits, back, opens⟩ := sits
    cases holds with
    | false => exact ⟨_, _, _, .finished tested⟩
    | true =>
      have opened := stands.leads_again calls k test tested
      obtain ⟨fuel', total, whole'⟩ := opened.exists_rest whole
      obtain ⟨done, ending, m'', inside⟩ :=
        few fuel' (by omega) stands bodySits (Exits.none r 0 _) whole'
      cases ending with
      | on =>
        obtain ⟨n, k', leads⟩ := inside.reaches links stands bodySits rfl rfl (Exits.none r 0 _)
        obtain ⟨fuel'', total', whole''⟩ :=
          (leads.trans (stands.leads_loop back opens)).exists_rest whole'
        obtain ⟨_, _, _, others⟩ :=
          few fuel'' (by omega) (s := .loop block comparison a b body) stands
            ⟨test, bodySits, back, opens⟩ exits whole''
        exact ⟨_, _, _, .loop tested inside others⟩
      | left => exact ⟨_, _, _, .broken tested inside nofun⟩
      | failed fault => exact ⟨_, _, _, .broken tested inside nofun⟩
  | switch block a body =>
    rcases selected : select activation.object branches.length block a m with ⟨fault | value, m'⟩
    · exact ⟨_, _, _, .unselected selected⟩
    · obtain ⟨member, once, bodySits, last, opens⟩ := sits
      obtain ⟨record, within, kind, number, opened, marks, closing⟩ := opens
      obtain ⟨place, destination, follows⟩ := bodySits.entered once marks closing value
      have entered := stands.leads_select calls k member within kind number
        destination selected
      obtain ⟨fuel', total, whole'⟩ := entered.exists_rest whole
      have exits' : Exits r (some block) (o + width (.control .switch) (switchArguments block a) +
          body.length + 1) (Word.ofNat block :: branches) := by
        intro _ same
        cases same
        exact ⟨rfl, o, _, _, ⟨record, within, kind, number, opened, marks, closing⟩, rfl⟩
      obtain ⟨_, _, _, inside⟩ := few fuel' (by omega) stands follows.sits exits' whole'
      exact ⟨_, _, _, .switch selected inside⟩

/-! ## Sub-scripts -/

/-- **A run of a sub-script**, with what it carries out. -/
def trace (p : Program) (activation : Activation) (entry : EntryPoint) (m : Machine) : Trace :=
  traceFrom p activation (m.budget - m.steps) (.ofEntry entry) (m.amid [] [] m.steps)

/-- The run is one of the machine. -/
theorem run_eq_trace (p : Program) (activation : Activation) (entry : EntryPoint) (m : Machine) :
    run p activation entry m =
      ((trace p activation entry m).answer, (trace p activation entry m).machine) :=
  runFrom_eq_traceFrom ..

/-- A run under a step limit is one that ends by itself, or a part of it that is cut off. -/
theorem Ends.eq_or_isCut {n : Nat} {here : Position} {m : Machine} {t : Trace}
    (ends : Ends p activation n here m t) (fuel : Nat) :
    traceFrom p activation fuel here m = t ∨ (traceFrom p activation fuel here m).IsCut ∧
      (traceFrom p activation fuel here m).actions <+: t.actions := by
  by_cases cut : (traceFrom p activation fuel here m).IsCut
  · have longer := @actions_prefix_actions p activation fuel n here m
    rw [Nat.add_comm, ends fuel] at longer
    exact .inr ⟨cut, longer⟩
  · have whole := ends_traceFrom cut n
    rw [Nat.add_comm, ends fuel] at whole
    exact .inl whole.symm

/-- What a run of a statement comes to is what a run of the machine from an entry point comes to. What
the machine keeps about open blocks, open calls and steps is no part of a run of a statement. -/
structure Trace.Agrees (t : Trace) (done : List Action) (ending : Ending) (m' : Machine) : Prop where
  actions : t.actions = done
  answer : t.answer = ending.result
  machine : ∃ branches calls steps, t.machine = m'.amid branches calls steps

/-- **A statement governs the runs from an entry point**: the machine carries out the same instructions
on data, in the same order, and comes to the same registers, scene and calls of the host. -/
structure Statement.Governs (s : Statement) (p : Program) (bodies : Nat → Option Statement)
    (entry : EntryPoint) : Prop where
  /-- The trace tells what becomes of a run of the machine. -/
  is_run (activation : Activation) (m : Machine) : run p activation entry m =
    ((trace p activation entry m).answer, (trace p activation entry m).machine)
  /-- Where the statement has a run the machine does it, unless the step limit cuts it off in the
  middle. -/
  does {activation : Activation} {m m' : Machine} {done : List Action} {ending : Ending}
    (runs : s.Runs bodies activation 0 0 m done ending m') :
    (trace p activation entry m).Agrees done ending m' ∨
      (trace p activation entry m).IsCut ∧ (trace p activation entry m).actions <+: done
  /-- Where the machine is not cut off the statement has a run. -/
  has {activation : Activation} {m : Machine} (whole : ¬ (trace p activation entry m).IsCut) :
    ∃ done ending m', s.Runs bodies activation 0 0 m done ending m'

/-- **What a sub-script says governs its runs.** -/
theorem Statement.Fills.governs {s : Statement} {entry : EntryPoint} (links : p.Links bodies)
    (fills : s.Fills p (.control .stop) entry) : s.Governs p bodies entry := by
  obtain ⟨r, is, rfl, stands, sits, last⟩ := fills
  have none := Exits.none r 0 []
  refine ⟨fun activation m => run_eq_trace p activation _ m,
    fun {activation m m' done ending} runs => ?_, fun {activation m} whole =>
    s.exists_runs links stands sits none whole⟩
  have reaches := runs.reaches links stands sits rfl (List.length_nil : ([] : List Position).length = 0)
    none (k := m.steps)
  rw [Nat.zero_add] at reaches
  have ends : ∃ n branches calls k, Ends p activation n (r.position 0) (m.amid [] [] m.steps)
      ⟨done, ending.result, m'.amid branches calls k⟩ := by
    cases ending with
    | on =>
      obtain ⟨n, k, leads⟩ := reaches
      have ends := leads.ends (stands.ends_stop last)
      rw [Trace.after, List.append_nil] at ends
      exact ⟨_, _, _, _, ends⟩
    | left => exact absurd reaches.1 Bool.false_ne_true
    | failed fault =>
      obtain ⟨n, branches, calls, k, ends⟩ := reaches
      exact ⟨n, branches, calls, k, ends⟩
  obtain ⟨n, branches, calls, k, ends⟩ := ends
  rcases ends.eq_or_isCut (m.budget - m.steps) with same | ⟨cut, part⟩
  · refine .inl ?_
    rw [trace, show Position.ofEntry r.entry = r.position 0 from rfl, same]
    exact ⟨rfl, rfl, branches, calls, k, rfl⟩
  · exact .inr ⟨cut, part⟩

end StageScript
