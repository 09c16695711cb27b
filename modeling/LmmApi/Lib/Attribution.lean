import Mathlib.Algebra.Order.Ring.Int
import Mathlib.Tactic.Ring

/-!
# Attributing changes to steps

Several parties act on one state, and a quantity of the state is lowered and raised by all of them.
`decrease` is the part of the change along a run that the steps of one party make: the sum of the
differences at its own steps. `decrease_rule` is the induction for statements that relate it
to the state at the end of the run.
-/

namespace LmmApi.Attribution

variable {σ ι κ : Type*} (exec : ι → σ → σ)

/-- The state after a list of steps. -/
def run (s : σ) (steps : List ι) : σ := steps.foldl (fun s i => exec i s) s

/-- Every step of a run meets the condition `ok` in the state it runs in. -/
def Along (ok : ι → σ → Prop) : σ → List ι → Prop
  | _, [] => True
  | s, i :: steps => ok i s ∧ Along ok (exec i s) steps

instance Along.decidable (ok : ι → σ → Prop) [∀ i s, Decidable (ok i s)] :
    ∀ s steps, Decidable (Along exec ok s steps)
  | _, [] => isTrue trivial
  | s, i :: steps =>
    have := Along.decidable ok (exec i s) steps
    inferInstanceAs (Decidable (_ ∧ _))

variable {steps : List ι} {ok : ι → σ → Prop} {s : σ} {μ : κ → σ → ℤ} {P : σ → Prop}

variable {exec} in
/-- **The invariant rule**: what every step of a run keeps holds at its end. -/
theorem run_rule (hs : ∀ s i, ok i s → P s → P (exec i s))
    (h : P s) (hok : Along exec ok s steps) : P (run exec s steps) := by
  induction steps generalizing s with
  | nil => exact h
  | cons i _ ih => exact ih (hs s i hok.1 h) hok.2

variable {exec} in
/-- The invariant rule for runs of two phases. -/
theorem run_rule_or {Q : σ → Prop} (hP : ∀ s i, ok i s → P s → P (exec i s) ∨ Q (exec i s))
    (hQ : ∀ s i, ok i s → Q s → Q (exec i s)) (h : P s) (hok : Along exec ok s steps) :
    P (run exec s steps) ∨ Q (run exec s steps) :=
  run_rule (P := fun s => P s ∨ Q s)
    (fun s i hi h => h.elim (hP s i hi) fun h => .inr (hQ s i hi h)) (.inl h) hok

variable {exec} in
theorem Along.mono {ok ok' : ι → σ → Prop} (h : Along exec ok s steps)
    (himp : ∀ i s, ok i s → ok' i s) : Along exec ok' s steps := by
  induction steps generalizing s with
  | nil => trivial
  | cons i _ ih => exact ⟨himp i s h.1, ih h.2⟩

variable {exec} in
theorem Along.and {ok ok' : ι → σ → Prop} (h : Along exec ok s steps)
    (h' : Along exec ok' s steps) : Along exec (fun i s => ok i s ∧ ok' i s) s steps := by
  induction steps generalizing s with
  | nil => trivial
  | cons _ _ ih => exact ⟨⟨h.1, h'.1⟩, ih h.2 h'.2⟩

variable {exec} in
/-- What follows from an invariant at every step. -/
theorem Along.of_invariant {ok ok' : ι → σ → Prop}
    (hok' : ∀ s i, ok i s → P s → ok' i s) (hs : ∀ s i, ok i s → P s → P (exec i s))
    (h : P s) (hok : Along exec ok s steps) : Along exec ok' s steps := by
  induction steps generalizing s with
  | nil => trivial
  | cons i _ ih => exact ⟨hok' s i hok.1 h, ih (hs s i hok.1 h) hok.2⟩

/-- Some step of a run is a `P` step. -/
def Occurs (P : ι → σ → Prop) : σ → List ι → Prop
  | _, [] => False
  | s, i :: steps => P i s ∨ Occurs P (exec i s) steps

instance Occurs.decidable (P : ι → σ → Prop) [∀ i s, Decidable (P i s)] :
    ∀ s steps, Decidable (Occurs exec P s steps)
  | _, [] => isFalse not_false
  | s, i :: steps =>
    have := Occurs.decidable P (exec i s) steps
    inferInstanceAs (Decidable (_ ∨ _))

variable {exec} in
/-- What an invariant excludes does not occur. -/
theorem not_occurs {ok P : ι → σ → Prop} {Q : σ → Prop} (hnot : ∀ s i, ok i s → Q s → ¬ P i s)
    (hs : ∀ s i, ok i s → Q s → Q (exec i s)) (h : Q s)
    (hok : Along exec ok s steps) : ¬ Occurs exec P s steps := by
  induction steps generalizing s with
  | nil => exact not_false
  | cons i _ ih =>
    rintro (hi | hsteps)
    · exact hnot s i hok.1 h hi
    · exact ih (hs s i hok.1 h) hok.2 hsteps

variable {exec} in
theorem along_of_forall (h : ∀ i s, ok i s) (s : σ) (steps : List ι) : Along exec ok s steps := by
  induction steps generalizing s with
  | nil => trivial
  | cons i _ ih => exact ⟨h i s, ih _⟩

variable {exec} in
/-- The invariant rule for runs of any steps. -/
theorem run_rule_any (hs : ∀ s i, P s → P (exec i s)) (h : P s)
    (steps : List ι) : P (run exec s steps) :=
  run_rule (fun s i _ => hs s i) h (along_of_forall (fun _ _ => trivial) s steps)

variable (mine : ι → Prop) [DecidablePred mine]

/-- By how much a step of the party lowers `μ`; other steps do not count. -/
def stepDecrease (μ : σ → ℤ) (i : ι) (s : σ) : ℤ := if mine i then μ s - μ (exec i s) else 0

/-- By how much the steps of the party lower `μ` along a run. -/
def decrease (μ : σ → ℤ) : σ → List ι → ℤ
  | _, [] => 0
  | s, i :: steps => stepDecrease exec mine μ i s + decrease μ (exec i s) steps

variable {exec mine}

/-- **The rule for attributed changes**: a relation between the state and the decreases of some
quantities so far, kept by every step that meets the condition, relates the end of a run of such
steps to the decreases along it. -/
theorem decrease_rule_along {P : σ → (κ → ℤ) → Prop} (hs : ∀ s d i, ok i s → P s d →
      P (exec i s) fun k => d k + stepDecrease exec mine (μ k) i s)
    {d : κ → ℤ} (h : P s d) (hok : Along exec ok s steps) :
    P (run exec s steps) fun k => d k + decrease exec mine (μ k) s steps := by
  induction steps generalizing s d with
  | nil => simpa only [run, List.foldl_nil, decrease, add_zero] using h
  | cons i _ ih =>
    have hn := ih (hs s d i hok.1 h) hok.2
    simp only [decrease, ← add_assoc]
    exact hn

/-- The rule for runs of any steps. -/
theorem decrease_rule {P : σ → (κ → ℤ) → Prop}
    (hs : ∀ s d i, P s d → P (exec i s) fun k => d k + stepDecrease exec mine (μ k) i s)
    {d : κ → ℤ} (h : P s d) (steps : List ι) :
    P (run exec s steps) fun k => d k + decrease exec mine (μ k) s steps :=
  decrease_rule_along (fun s d i _ => hs s d i) h (along_of_forall (fun _ _ => trivial) s steps)

/-! ## Parties that depend on the state -/

variable {π : Type*} [DecidableEq π]

variable (exec) in
/-- By how much a step of the party `k` lowers `μ`, where the state tells whose step it is. -/
def stepDecreaseBy (party : ι → σ → Option π) (k : π) (μ : σ → ℤ) (i : ι) (s : σ) : ℤ :=
  if party i s = some k then μ s - μ (exec i s) else 0

variable (exec) in
/-- By how much the steps of the party `k` lower `μ` along a run. -/
def decreaseBy (party : ι → σ → Option π) (k : π) (μ : σ → ℤ) : σ → List ι → ℤ
  | _, [] => 0
  | s, i :: steps => stepDecreaseBy exec party k μ i s + decreaseBy party k μ (exec i s) steps

/-- **The rule for attributed changes**, with the decreases by all parties. -/
theorem decreaseBy_rule {party : ι → σ → Option π} {P : σ → (π → κ → ℤ) → Prop}
    (hs : ∀ s d i, ok i s → P s d →
      P (exec i s) fun k m => d k m + stepDecreaseBy exec party k (μ m) i s)
    {d : π → κ → ℤ} (h : P s d) (hok : Along exec ok s steps) :
    P (run exec s steps) fun k m => d k m + decreaseBy exec party k (μ m) s steps := by
  induction steps generalizing s d with
  | nil => simpa only [run, List.foldl_nil, decreaseBy, add_zero] using h
  | cons i _ ih =>
    have hn := ih (hs s d i hok.1 h) hok.2
    simp only [decreaseBy, ← add_assoc]
    exact hn

end LmmApi.Attribution
