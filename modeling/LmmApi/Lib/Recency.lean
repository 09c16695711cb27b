import Mathlib.Data.List.Induction
import Mathlib.Data.List.Nodup

/-!
# Lists by recency

The items of a cache in the order of their last use, the most recent first. An item that is used is
put in front, and `trim` drops items from the end until the others fit. If a stamp says when each key
was used last, the list is ordered by stamps, so that what `trim` drops was used before everything it
keeps.
-/

namespace LmmApi.Recency

open Function List

variable {α κ : Type*}

section Without

variable [DecidableEq κ] (key : α → κ)

/-- The items of other keys. -/
def without (k : κ) (l : List α) : List α := l.filter fun a => key a ≠ k

theorem mem_without {k : κ} {l : List α} {a : α} : a ∈ without key k l ↔ a ∈ l ∧ key a ≠ k := by
  simp [without, mem_filter]

theorem without_eq_self {k : κ} {l : List α} (h : ∀ a ∈ l, key a ≠ k) : without key k l = l :=
  filter_eq_self.2 fun a ha => decide_eq_true (h a ha)

/-- An item stands for its key. -/
theorem perm_cons_without {l : List α} {a : α} (hnodup : (l.map key).Nodup) (ha : a ∈ l) :
    l.Perm (a :: without key (key a) l) := by
  refine (perm_ext_iff_of_nodup (.of_map _ hnodup) (nodup_cons.2 ⟨?_, ?_⟩)).2 fun b => ?_
  · exact fun h => ((mem_without key).1 h).2 rfl
  · exact (List.Nodup.of_map _ hnodup).filter _
  · rw [mem_cons, mem_without]
    constructor
    · intro hb
      by_cases hkey : key b = key a
      · exact .inl (inj_on_of_nodup_map hnodup hb ha hkey)
      · exact .inr ⟨hb, hkey⟩
    · rintro (rfl | h)
      · exact ha
      · exact h.1

theorem without_sublist (k : κ) (l : List α) : (without key k l).Sublist l := filter_sublist

end Without

/-- Drop items from the front of a reversed list, as long as there are too many. -/
def trimReversed (large : List α → Bool) : List α → List α
  | [] => []
  | a :: l => if large (a :: l).reverse then trimReversed large l else a :: l

/-- Drop items from the end, as long as there are too many. -/
def trim (large : List α → Bool) (l : List α) : List α := (trimReversed large l.reverse).reverse

section Trim

variable {large : List α → Bool} {l : List α}

theorem trim_append_singleton {a : α} (h : large (l ++ [a]) = true) :
    trim large (l ++ [a]) = trim large l := by
  simp [trim, trimReversed, h]

theorem trim_of_not_large (h : large l = false) : trim large l = l := by
  cases hl : l.reverse with
  | nil => simp [trim, trimReversed, reverse_eq_nil_iff.1 hl]
  | cons a r =>
    have hr : (a :: r).reverse = l := by rw [← hl, reverse_reverse]
    rw [trim, hl, trimReversed, hr, h]
    exact hr

theorem trim_isPrefix (large : List α → Bool) (l : List α) : trim large l <+: l := by
  induction l using List.reverseRecOn with
  | nil => simp [trim, trimReversed]
  | append_singleton l a ih =>
    by_cases h : large (l ++ [a]) = true
    · rw [trim_append_singleton h]
      exact ih.trans (prefix_append _ _)
    · exact ⟨[], by rw [trim_of_not_large (by simpa using h), append_nil]⟩

theorem not_large_trim (h : large [] = false) (l : List α) : large (trim large l) = false := by
  induction l using List.reverseRecOn with
  | nil => simpa [trim, trimReversed] using h
  | append_singleton l a ih =>
    by_cases h : large (l ++ [a]) = true
    · rw [trim_append_singleton h]
      exact ih
    · rw [trim_of_not_large (by simpa using h)]
      simpa using h

/-- The first item is kept if it fits alone. -/
theorem mem_trim_cons {a : α} (h : large [a] = false) (l : List α) : a ∈ trim large (a :: l) := by
  induction l using List.reverseRecOn with
  | nil =>
    rw [trim_of_not_large h]
    exact mem_singleton.2 rfl
  | append_singleton l b ih =>
    by_cases hlarge : large (a :: l ++ [b]) = true
    · rw [← cons_append, trim_append_singleton hlarge]
      exact ih
    · rw [← cons_append, trim_of_not_large (by simpa using hlarge)]
      exact mem_append_left _ mem_cons_self

end Trim

/-! ## Stamps -/

variable {key : α → κ} {stamp : κ → ℕ} {l l' : List α}

/-- The list is ordered by the last use of its keys. -/
def Recent (key : α → κ) (stamp : κ → ℕ) (l : List α) : Prop :=
  l.Pairwise fun a b => stamp (key b) < stamp (key a)

theorem Recent.sublist (h : Recent key stamp l) (hsub : l'.Sublist l) : Recent key stamp l' :=
  List.Pairwise.sublist hsub h

/-- The most recent item stands in front. -/
theorem Recent.cons_update [DecidableEq κ] {now : ℕ} {a : α} (h : Recent key stamp l) (hnow : ∀ k, stamp k < now) :
    Recent key (Function.update stamp (key a) now) (a :: without key (key a) l) := by
  refine pairwise_cons.2 ⟨fun b hb => ?_, ?_⟩
  · have hne := ((mem_without key).1 hb).2
    rw [update_self, update_of_ne hne]
    exact hnow _
  · refine (h.sublist (without_sublist key (key a) l)).imp_of_mem fun {b c} hb hc hlt => ?_
    rw [update_of_ne ((mem_without key).1 hb).2, update_of_ne ((mem_without key).1 hc).2]
    exact hlt

/-- **What is dropped was used before what is kept.** -/
theorem Recent.lt_of_trim {large : List α → Bool} (h : Recent key stamp l) {a b : α} (ha : a ∈ l)
    (hdropped : a ∉ trim large l) (hb : b ∈ trim large l) : stamp (key a) < stamp (key b) := by
  obtain ⟨_, hrest⟩ := trim_isPrefix large l
  rw [Recent, ← hrest, pairwise_append] at h
  rw [← hrest] at ha
  exact h.2.2 b hb a ((mem_append.1 ha).resolve_left hdropped)

end LmmApi.Recency
