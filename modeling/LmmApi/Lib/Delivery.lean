import LmmApi.Lib.Attribution
import Mathlib.Data.List.MinMax

/-!
# Messages in any order, any number of times

What is observed along a run is a list, and `observed_rule` proves a property of the state together
with the observations so far. Where some steps deliver a message, `delivered` is the list of all
deliveries, repetitions included, and `delivery_rule` the rule for them. Where the property
determines the state by the *set* of messages, the order and the multiplicity of the deliveries do
not matter; `IsLatest` is such a use of the set, for a register that keeps the message with the
greatest key.
-/

namespace LmmApi.Attribution

open List

variable {σ ι ε κ : Type*} {exec : ι → σ → σ} {message : ι → Option ε}

variable (exec) in
/-- What is observed at the steps of a run, in the states they run in. -/
def observed (observe : ι → σ → List ε) : σ → List ι → List ε
  | _, [] => []
  | s, i :: steps => observe i s ++ observed observe (exec i s) steps

variable {seen : List ε} {ok : ι → σ → Prop}

/-- **The rule for observations**: what every step keeps of the state and the observations so far
holds of all observations at the end. -/
theorem observed_rule {observe : ι → σ → List ε} {P : List ε → σ → Prop}
    (hstep : ∀ seen s i, ok i s → P seen s → P (seen ++ observe i s) (exec i s)) {s : σ}
    (h : P seen s) {steps : List ι} (hok : Along exec ok s steps) :
    P (seen ++ observed exec observe s steps) (run exec s steps) := by
  induction steps generalizing s seen with
  | nil => rwa [observed, append_nil]
  | cons i _ ih =>
    rw [observed, ← append_assoc]
    exact ih (hstep seen s i hok.1 h) hok.2

/-- Every element of a list is allowed by those before it. -/
def Stepwise (allowed : List ε → ε → Prop) (l : List ε) : Prop :=
  ∀ before e, before ++ [e] <+: l → allowed before e

theorem Stepwise.nil (allowed : List ε → ε → Prop) : Stepwise allowed [] := by
  intro before e h
  simp at h

theorem Stepwise.snoc {allowed : List ε → ε → Prop} {l : List ε} {e : ε} (h : Stepwise allowed l)
    (he : allowed l e) : Stepwise allowed (l ++ [e]) := by
  intro before e' hprefix
  rcases prefix_concat_iff.1 hprefix with heq | hprefix
  · obtain ⟨rfl, rfl⟩ := append_inj' heq rfl |>.imp_right singleton_inj.1
    exact he
  · exact h before e' hprefix

/-- The messages that are delivered along a run. -/
def delivered (message : ι → Option ε) (steps : List ι) : List ε := steps.filterMap message

theorem delivered_cons (i : ι) (steps : List ι) :
    delivered message (i :: steps) = (message i).toList ++ delivered message steps := by
  cases hi : message i <;> simp [delivered, hi]

variable (exec) in
theorem observed_message (message : ι → Option ε) (s : σ) (steps : List ι) :
    observed exec (fun i _ => (message i).toList) s steps = delivered message steps := by
  induction steps generalizing s with
  | nil => rfl
  | cons _ _ ih => rw [observed, ih, delivered_cons]

/-- **The rule for deliveries**: what every step keeps of the state and the messages so far holds of
all messages at the end. -/
theorem delivery_rule {P : List ε → σ → Prop}
    (hstep : ∀ seen s i, ok i s → P seen s → P (seen ++ (message i).toList) (exec i s)) {s : σ}
    (h : P seen s) {steps : List ι} (hok : Along exec ok s steps) :
    P (seen ++ delivered message steps) (run exec s steps) := by
  rw [← observed_message exec message s steps]
  exact observed_rule hstep h hok

/-- The conditions along a run hold along its beginning, and after it. -/
theorem along_append {s : σ} {before after : List ι} : Along exec ok s (before ++ after) ↔
      Along exec ok s before ∧ Along exec ok (run exec s before) after := by
  induction before generalizing s with
  | nil => exact ⟨fun h => ⟨trivial, h⟩, fun h => h.2⟩
  | cons _ _ ih =>
    simp only [cons_append, Along, ih, and_assoc]
    rfl

/-! ## The latest message -/

variable [LinearOrder κ] {key : ε → κ}

/-- `e` is one of the messages with the greatest key. -/
def IsLatest (key : ε → κ) (seen : List ε) (e : ε) : Prop := e ∈ seen ∧ ∀ e' ∈ seen, key e' ≤ key e

theorem exists_isLatest (key : ε → κ) (h : seen ≠ []) : ∃ e, IsLatest key seen e := by
  cases hmax : seen.argmax key with
  | none => exact absurd (argmax_eq_none.1 hmax) h
  | some e => exact ⟨e, argmax_mem hmax, fun e' he' => le_of_mem_argmax he' hmax⟩

/-- Only the set of messages matters. -/
theorem isLatest_congr {seen seen' : List ε} (h : ∀ d, d ∈ seen ↔ d ∈ seen') {e : ε} :
    IsLatest key seen e ↔ IsLatest key seen' e := by
  simp only [IsLatest, h]

/-- A message with a smaller key than another is not the latest. -/
theorem IsLatest.of_append_of_lt {e last d : ε} (hlast : last ∈ seen)
    (hlt : key e < key last) (h : IsLatest key (seen ++ [e]) d) : IsLatest key seen d := by
  have hle := h.2 last (mem_append_left _ hlast)
  refine ⟨?_, fun e' he' => h.2 e' (mem_append_left _ he')⟩
  rcases mem_append.1 h.1 with hd | hd
  · exact hd
  · rw [mem_singleton.1 hd] at hle
    exact absurd hlt (not_lt.2 hle)

/-- A message with a greater key than all others is the only latest one. -/
theorem IsLatest.eq_of_append {e d : ε} (hgt : ∀ e' ∈ seen, key e' < key e)
    (h : IsLatest key (seen ++ [e]) d) : d = e := by
  have hle := h.2 e (mem_append_right _ (mem_singleton_self e))
  rcases mem_append.1 h.1 with hd | hd
  · exact absurd (hgt d hd) (not_lt.2 hle)
  · exact mem_singleton.1 hd

end LmmApi.Attribution
