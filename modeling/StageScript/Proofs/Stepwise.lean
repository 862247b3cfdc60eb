/-! # Steps as functions of a state
A step that may fail and changes a state is a function from states to answers and states. These are
the laws by which such functions are opened, for the steps of the machine and of the compiler alike.
* `Stepwise.bind_apply` and its companions say what the parts of a step do to a state;
* **`Stepwise.exists_of_bind_eq_ok`** — a sequence of steps succeeds through a success of the first. -/

namespace StageScript

namespace Stepwise

variable {ε σ α β : Type}

@[simp] theorem pure_apply (a : α) (s : σ) : (pure a : ExceptT ε (StateM σ) α) s = (.ok a, s) := rfl

@[simp] theorem bind_apply (x : ExceptT ε (StateM σ) α) (f : α → ExceptT ε (StateM σ) β) (s : σ) :
    (x >>= f) s =
      match x s with
      | (.ok a, s) => f a s
      | (.error e, s) => (.error e, s) := by
  rcases h : x s with ⟨_ | _, _⟩ <;>
    simp [bind, ExceptT.bind, ExceptT.bindCont, ExceptT.mk, StateT.bind, h] <;> rfl

@[simp] theorem map_apply (f : α → β) (x : ExceptT ε (StateM σ) α) (s : σ) :
    (f <$> x) s = ((x s).1.map f, (x s).2) := by
  rcases h : x s with ⟨_ | _, _⟩ <;>
    simp [Functor.map, ExceptT.map, ExceptT.mk, StateT.bind, bind, h] <;> rfl

@[simp] theorem discard_apply (x : ExceptT ε (StateM σ) α) (s : σ) :
    (discard x) s = ((x s).1.map fun _ => ⟨⟩, (x s).2) :=
  map_apply (fun _ => PUnit.unit) x s

@[simp] theorem seqRight_apply (x : ExceptT ε (StateM σ) α) (y : ExceptT ε (StateM σ) β) (s : σ) :
    (x *> y) s =
      match x s with
      | (.ok _, s) => y s
      | (.error e, s) => (.error e, s) :=
  bind_apply x (fun _ => y) s

@[simp] theorem get_apply (s : σ) : (get : ExceptT ε (StateM σ) σ) s = (.ok s, s) := rfl

@[simp] theorem set_apply (s s' : σ) : (set s' : ExceptT ε (StateM σ) PUnit) s = (.ok ⟨⟩, s') := rfl

@[simp] theorem modify_apply (f : σ → σ) (s : σ) :
    (modify f : ExceptT ε (StateM σ) PUnit) s = (.ok ⟨⟩, f s) := rfl

@[simp] theorem throw_apply (e : ε) (s : σ) :
    (throw e : ExceptT ε (StateM σ) α) s = (.error e, s) := rfl

@[simp] theorem mk_pure_apply (x : Except ε α) (s : σ) :
    (ExceptT.mk (pure x) : ExceptT ε (StateM σ) α) s = (x, s) := rfl

/-- A step that succeeds goes on with what it gives. -/
theorem bind_apply_of_ok {x : ExceptT ε (StateM σ) α} {f : α → ExceptT ε (StateM σ) β} {s s' : σ}
    {a : α} (h : x s = (.ok a, s')) : (x >>= f) s = f a s' := by
  rw [bind_apply, h]

/-- A step that fails ends the sequence. -/
theorem bind_apply_of_error {x : ExceptT ε (StateM σ) α} {f : α → ExceptT ε (StateM σ) β}
    {s s' : σ} {e : ε} (h : x s = (.error e, s')) : (x >>= f) s = (.error e, s') := by
  rw [bind_apply, h]

/-- **A sequence of steps succeeds through a success of the first**, and goes on from there. -/
theorem exists_of_bind_eq_ok {x : ExceptT ε (StateM σ) α} {f : α → ExceptT ε (StateM σ) β}
    {s s' : σ} {b : β} (h : (x >>= f) s = (.ok b, s')) :
    ∃ a s₁, x s = (.ok a, s₁) ∧ f a s₁ = (.ok b, s') := by
  rw [bind_apply] at h
  rcases eq : x s with ⟨_ | a, s₁⟩
  · rw [eq] at h
    cases h
  · rw [eq] at h
    exact ⟨a, s₁, rfl, h⟩

end Stepwise

/-- What a computation of fixed values gives can be seen by its success. -/
theorem Except.eq_ok_of_toOption {ε α : Type} {x : Except ε α} {a : α} (h : x.toOption = some a) :
    x = .ok a := by
  cases x with
  | error e => cases h
  | ok b => exact congrArg Except.ok (Option.some.inj h)

/-- What a computation is refused for, if it is. -/
def Except.refusal? {ε α : Type} : Except ε α → Option ε
  | .error e => some e
  | .ok _ => none

/-- What a computation of fixed values is refused for can be seen by its refusal. -/
theorem Except.eq_error_of_refusal? {ε α : Type} {x : Except ε α} {e : ε}
    (h : refusal? x = some e) : x = .error e := by
  cases x with
  | error e' => exact congrArg Except.error (Option.some.inj h)
  | ok a => cases h

/-- What a step of fixed values gives can be seen by its success. -/
theorem Except.eq_of_toOption {ε σ α : Type} {x : Except ε α × σ} {a : α}
    (h : x.1.toOption = some a) : x = (.ok a, x.2) :=
  Prod.ext (eq_ok_of_toOption h) rfl

end StageScript
