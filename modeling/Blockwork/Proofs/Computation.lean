import Mathlib

/-!
# Computations with a state and a fault

Readers of lexemes and actions of the machine are computations of one sort: they change a state and
give a value or a fault. `outcome` runs such a computation from a state. The lemmas follow the
constructs of `do` notation, so that a computation is run one step at a time.
-/

namespace Blockwork

variable {ε σ α β : Type}

/-- What a computation gives from a state, and the state afterwards. -/
def outcome (x : ExceptT ε (StateM σ) α) (s : σ) : Except ε α × σ :=
  x.run s

@[simp] theorem outcome_pure (a : α) (s : σ) :
    outcome (pure a : ExceptT ε (StateM σ) α) s = (.ok a, s) := rfl

@[simp] theorem outcome_throw (e : ε) (s : σ) :
    outcome (throw e : ExceptT ε (StateM σ) α) s = (.error e, s) := rfl

@[simp] theorem outcome_get (s : σ) :
    outcome (get : ExceptT ε (StateM σ) σ) s = (.ok s, s) := rfl

@[simp] theorem outcome_set (s t : σ) :
    outcome (set t : ExceptT ε (StateM σ) PUnit) s = (.ok ⟨⟩, t) := rfl

@[simp] theorem outcome_modify (f : σ → σ) (s : σ) :
    outcome (modify f : ExceptT ε (StateM σ) PUnit) s = (.ok ⟨⟩, f s) := rfl

theorem outcome_bind (x : ExceptT ε (StateM σ) α) (f : α → ExceptT ε (StateM σ) β) (s : σ) :
    outcome (x >>= f) s = match outcome x s with
      | (.ok a, t) => outcome (f a) t
      | (.error e, t) => (.error e, t) := by
  change (let r := (x.run s); (ExceptT.bindCont f r.1).run r.2) = _
  unfold outcome
  rcases x.run s with ⟨e | a, t⟩
  · rfl
  · rfl

/-- The first part gives a value. -/
theorem outcome_bind_ok {x : ExceptT ε (StateM σ) α} {f : α → ExceptT ε (StateM σ) β} {s t : σ}
    {a : α} (h : outcome x s = (.ok a, t)) : outcome (x >>= f) s = outcome (f a) t := by
  rw [outcome_bind, h]

/-- The first part gives a fault. -/
theorem outcome_bind_error {x : ExceptT ε (StateM σ) α} {f : α → ExceptT ε (StateM σ) β}
    {s t : σ} {e : ε} (h : outcome x s = (.error e, t)) :
    outcome (x >>= f) s = (.error e, t) := by
  rw [outcome_bind, h]

/-- The first of two computations has given a value, if both together have. -/
theorem outcome_bind_eq_ok {x : ExceptT ε (StateM σ) α} {f : α → ExceptT ε (StateM σ) β}
    {s u : σ} {b : β} (h : outcome (x >>= f) s = (.ok b, u)) :
    ∃ a t, outcome x s = (.ok a, t) ∧ outcome (f a) t = (.ok b, u) := by
  rw [outcome_bind] at h
  rcases hx : outcome x s with ⟨e | a, t⟩
  · rw [hx] at h
    cases h
  · rw [hx] at h
    exact ⟨a, t, rfl, h⟩

/-- A computation that goes on with the result of another, also when that is a fault. -/
theorem outcome_mk (x : ExceptT ε (StateM σ) α) (f : Except ε α → StateM σ (Except ε β)) (s : σ) :
    outcome (ExceptT.mk (x.run >>= f)) s = (f (outcome x s).1).run (outcome x s).2 := rfl

/-! ### Without a state -/

/-- The first of two computations has given a value. -/
theorem except_bind_eq_ok {x : Except ε α} {f : α → Except ε β} {b : β}
    (h : (x >>= f) = .ok b) : ∃ a, x = .ok a ∧ f a = .ok b := by
  cases x with
  | error e => cases h
  | ok a => exact ⟨a, rfl, h⟩

theorem except_map_eq_ok {x : Except ε α} {f : α → β} {b : β} (h : x.map f = .ok b) :
    ∃ a, x = .ok a ∧ f a = b := by
  cases x with
  | error e => cases h
  | ok a => exact ⟨a, rfl, Except.ok.inj h⟩

/-- What is tested of a result holds of a value. -/
theorem exists_of_any {r : Except ε α} {P : α → Bool} (h : r.toOption.any P = true) :
    ∃ a, r = .ok a ∧ P a = true := by
  cases r with
  | error e => cases h
  | ok a => exact ⟨a, rfl, h⟩

end Blockwork
