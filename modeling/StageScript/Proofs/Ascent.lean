import Mathlib.Order.Defs.Unbundled
import StageScript.Proofs.Stepwise

/-! # Steps along a preorder
A step goes along a preorder of states if it leads from each state to one that stands behind it,
whether the step succeeds or fails. Small steps that do so make up large ones.
* **`Stepwise.Along`** — the notion, with one law for each way to put steps together;
* **`Stepwise.Along.forM`** — the same step for each member of a list;
* **`Stepwise.forM_raises`** — steps that raise a bound, one after the other. -/

namespace StageScript

namespace Stepwise

variable {ε σ α β : Type} {R : σ → σ → Prop}

/-- **The step goes along a relation**, whether it succeeds or fails. -/
def Along (R : σ → σ → Prop) (x : ExceptT ε (StateM σ) α) : Prop := ∀ s, R s (x s).2

/-- What holds of the first state holds of the second. -/
def Keeping (P : σ → Prop) (s s' : σ) : Prop := P s → P s'

instance (P : σ → Prop) : IsPreorder σ (Keeping P) where
  refl _ := id
  trans _ _ _ first second := second ∘ first

namespace Along

protected theorem modify {f : σ → σ} (h : ∀ s, R s (f s)) :
    Along R (modify f : ExceptT ε (StateM σ) PUnit) := h

/-- A step that looks at the state first. -/
theorem get_bind {f : σ → ExceptT ε (StateM σ) β} (hf : ∀ s, R s (f s s).2) : Along R (get >>= f) :=
  hf

protected theorem map (f : α → β) {x : ExceptT ε (StateM σ) α} (hx : Along R x) : Along R (f <$> x) := by
  intro s
  rw [map_apply]
  exact hx s

protected theorem discard {x : ExceptT ε (StateM σ) α} (hx : Along R x) : Along R (discard x) :=
  hx.map _

/-- Either of two steps. -/
protected theorem ite {c : Prop} [Decidable c] {x y : ExceptT ε (StateM σ) α} (hx : Along R x)
    (hy : Along R y) : Along R (if c then x else y) := by
  split
  · exact hx
  · exact hy

variable [IsPreorder σ R]

protected theorem pure (a : α) : Along R (pure a : ExceptT ε (StateM σ) α) := fun s => refl_of R s

protected theorem get : Along R (get : ExceptT ε (StateM σ) σ) := fun s => refl_of R s

protected theorem throw (e : ε) : Along R (throw e : ExceptT ε (StateM σ) α) := fun s => refl_of R s

/-- A result that is known beforehand. -/
protected theorem mk_pure (x : Except ε α) : Along R (ExceptT.mk (pure x) : ExceptT ε (StateM σ) α) :=
  fun s => refl_of R s

/-- A step from a state and what follows it. -/
theorem bind_of {x : ExceptT ε (StateM σ) α} {f : α → ExceptT ε (StateM σ) β} {s : σ} (first : R s (x s).2)
    (hf : ∀ a, Along R (f a)) : R s ((x >>= f) s).2 := by
  rw [bind_apply]
  rcases ran : x s with ⟨e | a, s'⟩
  · rw [ran] at first
    exact first
  · rw [ran] at first
    exact trans_of R first (hf a s')

protected theorem bind {x : ExceptT ε (StateM σ) α} {f : α → ExceptT ε (StateM σ) β} (hx : Along R x)
    (hf : ∀ a, Along R (f a)) : Along R (x >>= f) :=
  fun s => bind_of (hx s) hf

protected theorem seqRight {x : ExceptT ε (StateM σ) α} {y : ExceptT ε (StateM σ) β} (hx : Along R x)
    (hy : Along R y) : Along R (x *> y) :=
  hx.bind fun _ => hy

/-- **The same step for each member of a list.** -/
protected theorem forM {f : α → ExceptT ε (StateM σ) PUnit} {xs : List α}
    (each : ∀ a ∈ xs, Along R (f a)) : Along R (xs.forM f) := by
  induction xs with
  | nil => exact .pure _
  | cons a xs ih =>
    have rest := ih fun b member => each b (List.mem_cons_of_mem _ member)
    exact (each a List.mem_cons_self).bind fun _ => rest

end Along

/-- Steps that change nothing can be left out in front of others. -/
theorem forM_append_of_still {f : α → ExceptT ε (StateM σ) PUnit} {xs ys : List α} {s : σ}
    (still : ∀ a ∈ xs, f a s = (.ok ⟨⟩, s)) : (xs ++ ys).forM f s = ys.forM f s := by
  induction xs with
  | nil => rfl
  | cons a xs ih =>
    show (f a >>= fun _ => (xs ++ ys).forM f) s = _
    rw [bind_apply_of_ok (still a List.mem_cons_self)]
    exact ih fun b member => still b (List.mem_cons_of_mem a member)

/-- **Steps that each raise a bound by one** raise it by their number, even if one of them fails. -/
theorem forM_raises {L : Nat → σ → Prop} (higher : ∀ n s, L n s → L (n + 1) s)
    {f : α → ExceptT ε (StateM σ) PUnit} {xs : List α}
    (each : ∀ a ∈ xs, ∀ n s, L n s → L (n + 1) (f a s).2) {n : Nat} {s : σ} (begins : L n s) :
    L (n + xs.length) (xs.forM f s).2 := by
  induction xs generalizing n s with
  | nil => exact begins
  | cons a xs ih =>
    have first := each a List.mem_cons_self n s begins
    have rest := fun b member => each b (List.mem_cons_of_mem a member)
    rw [List.length_cons, Nat.add_comm xs.length 1, ← Nat.add_assoc]
    show L _ ((f a >>= fun _ => xs.forM f) s).2
    rw [bind_apply]
    rcases ran : f a s with ⟨e | _, s'⟩ <;> rw [ran] at first
    · -- the other steps are not taken
      clear ih rest each
      induction xs with
      | nil => exact first
      | cons b xs more => exact higher _ _ more
    · exact ih rest first

end Stepwise

end StageScript
