import Mathlib.Tactic.Common

/-!
# Guarded computations

The body of a database transaction is a sequence of lookups, guards and updates, each of which may
return an error, and an error rolls everything back. In `Except ε` such a body is a computation that
either returns its result with the new state or fails, in which case the old state stays.

* `require e c` and `orFail o e` are the two guards; `require_of`, `orFail_some` and `ok_bind` run a
  body whose guards are known to hold; `bind_eq_ok`, `require_eq_ok` and
  `orFail_eq_ok` turn a committed body into the conjunction of the facts it checked, and
  `bind_eq_error`, `require_eq_error` and `orFail_eq_error` list the ways a body fails.
* `commit r s` is the state after running a body whose outcome is `r` from the state `s`.
-/

namespace LmmApi.Guarded

universe u

variable {ε : Type*} {α β σ : Type u}

/-- Continue when `c` holds, and fail with `e` otherwise. -/
def require (e : ε) (c : Prop) [Decidable c] : Except ε Unit := if c then .ok () else .error e

/-- The value of a lookup, and the failure `e` when it found nothing. -/
def orFail (o : Option α) (e : ε) : Except ε α := o.elim (.error e) .ok

variable {x : Except ε α} {f : α → Except ε β} {a : α} {b : β} {o : Option α} {e e' : ε} {c : Prop}

theorem require_of [Decidable c] (h : c) : require e c = .ok () := if_pos h

theorem orFail_some : orFail (some a) e = .ok a := rfl

theorem ok_bind : (Except.ok a >>= f) = f a := rfl

/-- A body whose first part returns and whose rest succeeds on what it returns succeeds. -/
theorem exists_ok_bind (hx : x = .ok a) (hf : ∃ b, f a = .ok b) : ∃ b, x >>= f = .ok b := by
  rw [hx, ok_bind]
  exact hf

theorem require_eq_ok [Decidable c] {u : Unit} : require e c = .ok u ↔ c := by
  unfold require
  split <;> simp_all

theorem require_eq_error [Decidable c] : require e c = .error e' ↔ ¬c ∧ e = e' := by
  unfold require
  split <;> simp_all

theorem orFail_eq_ok : orFail o e = .ok a ↔ o = some a := by
  cases o <;> simp [orFail]

theorem orFail_eq_error : orFail o e = .error e' ↔ o = none ∧ e = e' := by
  cases o <;> simp [orFail]

theorem bind_eq_ok : x >>= f = .ok b ↔ ∃ a, x = .ok a ∧ f a = .ok b := by
  cases x <;> simp [bind, Except.bind]

theorem require_bind [Decidable c] {β : Type} {g : Unit → Except ε β} {b : β} :
    require e c >>= g = .ok b ↔ c ∧ g () = .ok b := by
  unfold require
  split <;> simp_all [bind, Except.bind]

theorem orFail_bind : orFail o e >>= f = .ok b ↔ ∃ a, o = some a ∧ f a = .ok b := by
  simp [bind_eq_ok, orFail_eq_ok]

/-- What comes after a computation of which only the success matters. -/
theorem of_bind (h : x >>= f = .ok b) : ∃ a, f a = .ok b := by
  obtain ⟨a, -, ha⟩ := bind_eq_ok.1 h
  exact ⟨a, ha⟩

theorem bind_eq_error : x >>= f = .error e ↔ x = .error e ∨ ∃ a, x = .ok a ∧ f a = .error e := by
  cases x <;> simp [bind, Except.bind]

theorem pure_eq_ok {a b : α} : (pure a : Except ε α) = .ok b ↔ a = b := by simp [pure, Except.pure]

/-- The simp set of committed bodies. -/
theorem eq_ok : (∀ {ε α β : Type} {x : Except ε α} {f : α → Except ε β} {b : β},
      x >>= f = .ok b ↔ ∃ a, x = .ok a ∧ f a = .ok b) ∧
    (∀ {ε : Type} {e : ε} {c : Prop} [Decidable c] {a : Unit}, require e c = .ok a ↔ c) ∧
    (∀ {ε α : Type} {o : Option α} {e : ε} {a : α}, orFail o e = .ok a ↔ o = some a) ∧
    (∀ {ε α : Type} {a b : α}, (pure a : Except ε α) = .ok b ↔ a = b) ∧
    (∀ {p : Prop}, (∃ _ : Unit, p) ↔ p) ∧
    ∀ {α β : Type} {a c : α} {b d : β}, (a, b) = (c, d) ↔ a = c ∧ b = d :=
  ⟨bind_eq_ok, require_eq_ok, orFail_eq_ok, pure_eq_ok, exists_const Unit,
    (Prod.mk.injEq _ _ _ _).to_iff⟩

theorem pure_ne_error : (pure a : Except ε α) ≠ .error e := by simp [pure, Except.pure]

theorem toOption_eq_some : x.toOption = some a ↔ x = .ok a := by
  cases x <;> simp [Except.toOption]

theorem map_eq_ok {f : α → β} : x.map f = .ok b ↔ ∃ a, x = .ok a ∧ f a = b := by
  cases x <;> simp [Except.map]

theorem mapError_eq_ok {ε' : Type*} {f : ε → ε'} : x.mapError f = .ok a ↔ x = .ok a := by
  cases x <;> simp [Except.mapError]

/-- The state after a transaction that returns only its new state: the old one, or a committed one.
-/
theorem getD_cases (x : Except ε σ) (s : σ) :
    x.toOption.getD s = s ∨ x = .ok (x.toOption.getD s) := by
  cases x with
  | error => exact .inl rfl
  | ok => exact .inr rfl

/-- Every value that a computation returns has the property `P`. -/
def Yields (P : α → Prop) (x : Except ε α) : Prop := ∀ a, x = .ok a → P a

theorem Yields.bind {P : β → Prop} (h : ∀ a, Yields P (f a)) : Yields P (x >>= f) := by
  intro b hb
  obtain ⟨a, -, hb⟩ := bind_eq_ok.1 hb
  exact h a b hb

theorem Yields.pure {P : α → Prop} (h : P a) : Yields P (Pure.pure a : Except ε α) := by
  intro b hb
  rwa [← pure_eq_ok.1 hb]

/-- The state after a transaction with outcome `r`, started in `s`. -/
def commit (r : Except ε (α × σ)) (s : σ) : σ :=
  match r with
  | .ok (_, s') => s'
  | .error _ => s

@[simp] theorem commit_ok (a : α) (s s' : σ) : commit (.ok (a, s') : Except ε (α × σ)) s = s' := rfl

@[simp] theorem commit_error (e : ε) (s : σ) : commit (.error e : Except ε (α × σ)) s = s := rfl

/-- What holds before and of every state that a transaction commits holds after it. -/
theorem commit_rule {P : σ → Prop} {r : Except ε (α × σ)} {s : σ}
    (hcommit : Yields (fun out => P out.2) r) (h : P s) : P (commit r s) := by
  cases r with
  | error => exact h
  | ok out => exact hcommit out rfl

end LmmApi.Guarded
