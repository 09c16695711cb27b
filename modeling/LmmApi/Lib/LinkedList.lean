import Mathlib.Data.List.Nodup
import Mathlib.Data.List.Pairwise

/-!
# Lists whose elements keep their identity

A doubly linked list hands out a reference to every element it holds: the element can be moved,
rewritten and removed through it in constant time, wherever it stands. Here a reference is a number
that is never given out twice, and the list is the sequence of its references with their values.
-/

namespace LmmApi

open List Option

/-- The elements from front to back, each with its reference. -/
structure LinkedList (α : Type*) where
  elements : List (ℕ × α)
  /-- The reference of the next new element. -/
  fresh : ℕ
  nodup : (elements.map Prod.fst).Nodup
  lt_fresh : ∀ x ∈ elements, x.1 < fresh

namespace LinkedList

variable {α : Type*}

def empty : LinkedList α := ⟨[], 0, nodup_nil, fun _ h => nomatch h⟩

/-- The number of elements. -/
def length (l : LinkedList α) : ℕ := l.elements.length

variable (l : LinkedList α) (id : ℕ)

/-- The values from front to back. -/
def values : List α := l.elements.map Prod.snd

/-- The value of an element. -/
def get? : Option α := (l.elements.find? (·.1 = id)).map Prod.snd

/-- The last element. -/
def back? : Option ℕ := l.elements.getLast?.map Prod.fst

/-- Add a new element in front. -/
def pushFront (a : α) : LinkedList α where
  elements := (l.fresh, a) :: l.elements
  fresh := l.fresh + 1
  nodup := by
    refine nodup_cons.2 ⟨fun h => ?_, l.nodup⟩
    obtain ⟨x, hx, hid⟩ := List.mem_map.1 h
    exact Nat.lt_irrefl _ (hid ▸ l.lt_fresh x hx)
  lt_fresh := by
    intro x hx
    obtain rfl | hx := mem_cons.1 hx
    · exact Nat.lt_succ_self _
    · exact Nat.lt_succ_of_lt (l.lt_fresh x hx)

/-- Remove an element. -/
def erase : LinkedList α where
  elements := l.elements.filter (·.1 ≠ id)
  fresh := l.fresh
  nodup := (filter_sublist.map _).nodup l.nodup
  lt_fresh x hx := l.lt_fresh x (mem_of_mem_filter hx)

/-- Rewrite the value of an element. -/
def update (f : α → α) : LinkedList α where
  elements := l.elements.map fun x => (x.1, if x.1 = id then f x.2 else x.2)
  fresh := l.fresh
  nodup := by
    rw [List.map_map]
    exact l.nodup
  lt_fresh x hx := by
    obtain ⟨y, hy, rfl⟩ := List.mem_map.1 hx
    exact l.lt_fresh y hy

/-- Move an element to the front. -/
def moveToFront : LinkedList α where
  elements := l.elements.filter (·.1 = id) ++ l.elements.filter (·.1 ≠ id)
  fresh := l.fresh
  nodup := by
    have hperm := filter_append_perm (fun x : ℕ × α => decide (x.1 = id)) l.elements
    simp only [ne_eq, decide_not]
    exact ((hperm.map Prod.fst).nodup_iff).2 l.nodup
  lt_fresh x hx := by
    rcases mem_append.1 hx with hx | hx <;> exact l.lt_fresh x (mem_of_mem_filter hx)

/-! ## Values of references -/

variable {l : LinkedList α} {id : ℕ} {a : α}

/-- A reference stands for one element. -/
theorem eq_of_mem {x y : ℕ × α} (hx : x ∈ l.elements) (hy : y ∈ l.elements) (h : x.1 = y.1) : x = y :=
  inj_on_of_nodup_map l.nodup hx hy h

theorem get?_eq_some_iff : l.get? id = some a ↔ (id, a) ∈ l.elements := by
  rw [get?, map_eq_some_iff]
  constructor
  · rintro ⟨x, hx, rfl⟩
    have hid := find?_some hx
    simp only [decide_eq_true_eq] at hid
    rw [← hid]
    exact mem_of_find?_eq_some hx
  · intro h
    cases hfind : l.elements.find? (·.1 = id) with
    | none => exact absurd (find?_eq_none.1 hfind _ h) (by simp)
    | some x =>
      have hid := find?_some hfind
      simp only [decide_eq_true_eq] at hid
      refine ⟨x, rfl, ?_⟩
      rw [eq_of_mem (mem_of_find?_eq_some hfind) h hid]

theorem mem_values_iff : a ∈ l.values ↔ ∃ id, (id, a) ∈ l.elements := by simp [values]

theorem length_values : l.values.length = l.length := length_map _

theorem mem_erase {x : ℕ × α} : x ∈ (l.erase id).elements ↔ x ∈ l.elements ∧ x.1 ≠ id := by
  simp [erase, mem_filter]

/-- An element that moves to the front stands before the others. -/
theorem moveToFront_eq_cons (h : (id, a) ∈ l.elements) :
    (l.moveToFront id).elements = (id, a) :: (l.erase id).elements := by
  have hone : l.elements.filter (·.1 = id) = [(id, a)] := by
    refine perm_singleton.1 ((perm_ext_iff_of_nodup ?_ (nodup_singleton _)).2 fun x => ?_)
    · exact (List.Nodup.of_map _ l.nodup).filter _
    · rw [mem_filter, decide_eq_true_eq, mem_singleton]
      constructor
      · exact fun hx => eq_of_mem hx.1 h hx.2
      · rintro rfl
        exact ⟨h, rfl⟩
  exact congrArg (· ++ (l.erase id).elements) hone

theorem update_erase (f : α → α) : ((l.update id f).erase id).elements = (l.erase id).elements := by
  simp only [erase, update, List.filter_map]
  have hsame x (hx : x ∈ l.elements.filter (fun x => decide (x.1 ≠ id))) :
      (x.1, if x.1 = id then f x.2 else x.2) = x := by
    rw [if_neg (by simpa using (mem_filter.1 hx).2)]
  exact (map_congr_left hsame).trans (List.map_id _)

theorem mem_update (f : α → α) (h : (id, a) ∈ l.elements) : (id, f a) ∈ (l.update id f).elements :=
  List.mem_map.2 ⟨(id, a), h, by rw [if_pos rfl]⟩

theorem back?_eq_some (h : l.back? = some id) : ∃ a, l.elements = (l.erase id).elements ++ [(id, a)] := by
  obtain ⟨x, hx, rfl⟩ := map_eq_some_iff.1 h
  obtain ⟨init, hinit⟩ := getLast?_eq_some_iff.1 hx
  refine ⟨x.2, ?_⟩
  have hnodup := l.nodup
  rw [hinit, map_append, nodup_append] at hnodup
  have hfilter : init.filter (fun y => decide (y.1 ≠ x.1)) = init := by
    refine filter_eq_self.2 fun y hy => decide_eq_true fun hsame => ?_
    exact hnodup.2.2 y.1 (List.mem_map_of_mem hy) x.1 (by simp) hsame
  simp only [erase, hinit, filter_append, hfilter]
  simp

theorem back?_eq_none (h : l.back? = none) : l.elements = [] := by simpa [back?] using h

end LinkedList

end LmmApi
