import Mathlib.Algebra.BigOperators.Group.List.Lemmas
import Mathlib.Algebra.Order.BigOperators.Group.List
import Mathlib.Data.List.Perm.Subperm
import Mathlib.Tactic.Linarith
import Mathlib.Tactic.Ring

/-!
# Tables with an auto-increment key

A `Table α` is a database table: rows of type `α` under increasing primary keys, all below the
counter the next insertion uses. The invariant is part of the type, so that a key names at most one
row in every table that can be built.

The reading side is `get?` (by primary key), `first?` and `last?` (the first and the last row, by
key, that satisfy a condition), `sum` and `count`. The writing side is `insert`, `modify` (one key),
`modifyWhere` and `eraseWhere`. Each writing operation comes with what it does to `get?` and to
`sum`; `count` is the sum of an indicator and inherits its rules.
-/

namespace LmmApi

open Function List Option

/-- Rows under strictly increasing primary keys below `next`. -/
structure Table (α : Type*) where
  rows : List (ℕ × α)
  next : ℕ
  sorted : (rows.map Prod.fst).Pairwise (· < ·)
  lt_next : ∀ r ∈ rows, r.1 < next

namespace Table

variable {α : Type*}

/-- The table without rows; the first key is `1`. -/
def empty : Table α := ⟨[], 1, by simp, by simp⟩

variable (t : Table α) (p : ℕ → α → Prop)

/-- The row with primary key `id`. -/
def get? (id : ℕ) : Option α := (t.rows.find? fun r => r.1 = id).map Prod.snd

/-- The first row, by primary key, that satisfies `p`. -/
def first? [∀ i a, Decidable (p i a)] : Option (ℕ × α) := t.rows.find? fun r => p r.1 r.2

/-- The last row, by primary key, that satisfies `p`. -/
def last? [∀ i a, Decidable (p i a)] : Option (ℕ × α) := t.rows.reverse.find? fun r => p r.1 r.2

/-- Add a row under the next primary key. -/
def insert (a : α) : Table α where
  rows := t.rows ++ [(t.next, a)]
  next := t.next + 1
  sorted := by
    rw [map_append, pairwise_append]
    refine ⟨t.sorted, by simp, ?_⟩
    simp only [List.mem_map, map_cons, map_nil, mem_singleton]
    rintro _ ⟨r, hr, rfl⟩ _ rfl
    exact t.lt_next r hr
  lt_next := by
    intro r hr
    rcases mem_append.1 hr with hr | hr
    · exact (t.lt_next r hr).trans (Nat.lt_succ_self _)
    · rw [mem_singleton] at hr
      subst hr
      exact Nat.lt_succ_self _

/-- Rewrite the rows that satisfy `p`. -/
def modifyWhere [∀ i a, Decidable (p i a)] (f : α → α) : Table α where
  rows := t.rows.map fun r => (r.1, if p r.1 r.2 then f r.2 else r.2)
  next := t.next
  sorted := by
    rw [List.map_map]
    exact t.sorted
  lt_next := by
    intro r hr
    obtain ⟨r', hr', rfl⟩ := List.mem_map.1 hr
    exact t.lt_next r' hr'

/-- Rewrite the row with primary key `id`. -/
def modify (id : ℕ) (f : α → α) : Table α := t.modifyWhere (fun i _ => i = id) f

/-- The table of some columns of every row. -/
def map {β : Type*} (t : Table α) (f : α → β) : Table β where
  rows := t.rows.map fun r => (r.1, f r.2)
  next := t.next
  sorted := by
    rw [List.map_map]
    exact t.sorted
  lt_next := by
    intro r hr
    obtain ⟨r', hr', rfl⟩ := List.mem_map.1 hr
    exact t.lt_next r' hr'

/-- Delete the rows that satisfy `p`. -/
def eraseWhere [∀ i a, Decidable (p i a)] : Table α where
  rows := t.rows.filter fun r => ¬p r.1 r.2
  next := t.next
  sorted := t.sorted.sublist (filter_sublist.map _)
  lt_next := fun r hr => t.lt_next r (mem_filter.1 hr).1

/-- Some row satisfies `p`. -/
def Any : Prop := ∃ r ∈ t.rows, p r.1 r.2

instance (t : Table α) (p : ℕ → α → Prop) [∀ i a, Decidable (p i a)] : Decidable (t.Any p) :=
  inferInstanceAs (Decidable (∃ r ∈ t.rows, p r.1 r.2))

/-- The sum of `f` over the rows. -/
def sum (t : Table α) (f : ℕ → α → ℤ) : ℤ := (t.rows.map fun r => f r.1 r.2).sum

/-- The number of rows that satisfy `p`. -/
def count [∀ i a, Decidable (p i a)] : ℤ := t.sum fun i a => if p i a then 1 else 0

/-! ## Lookup -/

variable {t : Table α} {p : ℕ → α → Prop} {id j : ℕ} {a b : α} {f g : ℕ → α → ℤ}

theorem get?_eq_some_iff : t.get? id = some a ↔ (id, a) ∈ t.rows := by
  unfold get?
  constructor
  · intro h
    obtain ⟨r, hr, rfl⟩ := map_eq_some_iff.1 h
    have hid : r.1 = id := by simpa using find?_some hr
    rw [← hid]
    exact mem_of_find?_eq_some hr
  · intro h
    rcases hf : t.rows.find? (fun r => r.1 = id) with _ | r
    · simpa using find?_eq_none.1 hf _ h
    · have hr := mem_of_find?_eq_some hf
      have hid : r.1 = id := by simpa using find?_some hf
      -- distinct keys: the row found is the row that is there
      have hinj : r = (id, a) := inj_on_of_nodup_map (t.sorted.imp fun h => Nat.ne_of_lt h) hr h hid
      rw [hf, hinj]
      rfl

theorem exists_get?_of_mem {r : ℕ × α} (h : r ∈ t.rows) : t.get? r.1 = some r.2 :=
  get?_eq_some_iff.2 h

theorem any_iff : t.Any p ↔ ∃ id a, t.get? id = some a ∧ p id a := by
  simp only [Any, Prod.exists, get?_eq_some_iff]

theorem lt_next_of_get? (h : t.get? id = some a) : id < t.next := t.lt_next _ (get?_eq_some_iff.1 h)

@[simp] theorem get?_next (t : Table α) : t.get? t.next = none := by
  rcases h : t.get? t.next with _ | a
  · rfl
  · exact absurd (lt_next_of_get? h) (Nat.lt_irrefl _)

theorem get?_empty (id : ℕ) : (empty : Table α).get? id = none := rfl

section Where

variable {p : ℕ → α → Prop} [∀ i a, Decidable (p i a)]

variable {t : Table α} {r : ℕ × α}

theorem first?_eq_some (h : t.first? p = some r) : t.get? r.1 = some r.2 ∧ p r.1 r.2 :=
  ⟨exists_get?_of_mem (mem_of_find?_eq_some h), by simpa using find?_some h⟩

theorem first?_eq_none (h : t.first? p = none) (ha : t.get? id = some a) : ¬p id a := by
  have := find?_eq_none.1 h _ (get?_eq_some_iff.1 ha)
  simpa using this

/-- The first row that satisfies `p` has the least key of those that do. -/
theorem first?_eq_some_iff : t.first? p = some r ↔ t.get? r.1 = some r.2 ∧ p r.1 r.2 ∧
      ∀ id a, t.get? id = some a → p id a → r.1 ≤ id := by
  have hlea {s : ℕ × α} (h : t.first? p = some s) :
      ∀ id a, t.get? id = some a → p id a → s.1 ≤ id := by
    intro id a ha hp
    obtain ⟨-, as, bs, hrs, hn⟩ := find?_eq_some_iff_append.1 h
    have hm := get?_eq_some_iff.1 ha
    have hsor := t.sorted
    rw [hrs] at hm hsor
    rcases mem_append.1 hm with hm | hm
    · simpa [hp] using hn _ hm
    · rcases mem_cons.1 hm with rfl | hm
      · exact le_rfl
      · rw [map_append, pairwise_append, map_cons, pairwise_cons] at hsor
        exact (hsor.2.1.1 id (List.mem_map.2 ⟨(id, a), hm, rfl⟩)).le
  constructor
  · intro h
    obtain ⟨hg, hp⟩ := first?_eq_some h
    exact ⟨hg, hp, hlea h⟩
  · rintro ⟨hg, hp, hmin⟩
    cases hfst : t.first? p with
    | none => exact absurd hp (first?_eq_none hfst hg)
    | some s =>
      obtain ⟨hs, hps⟩ := first?_eq_some hfst
      have hk : s.1 = r.1 := le_antisymm (hlea hfst _ _ hg hp) (hmin _ _ hs hps)
      rw [hk, hg] at hs
      rw [Prod.ext hk (some.inj hs).symm]

theorem last?_eq_some (h : t.last? p = some r) : t.get? r.1 = some r.2 ∧ p r.1 r.2 :=
  ⟨exists_get?_of_mem (mem_reverse.1 (mem_of_find?_eq_some h)), by simpa using find?_some h⟩

end Where

/-! ## What the writes do to a lookup -/

theorem get?_insert (t : Table α) (a : α) (id : ℕ) :
    (t.insert a).get? id = if id = t.next then some a else t.get? id := by
  ext b
  rw [get?_eq_some_iff]
  simp only [insert, mem_append, mem_singleton, Prod.mk.injEq]
  split
  · rename_i h
    subst h
    have : (t.next, b) ∉ t.rows := fun h => absurd (t.lt_next _ h) (Nat.lt_irrefl _)
    simp [this, eq_comm]
  · rename_i h
    simp [h, get?_eq_some_iff]

theorem get?_insert_self (t : Table α) (a : α) : (t.insert a).get? t.next = some a := by
  simp [get?_insert]

theorem get?_insert_of_get? (h : t.get? id = some b) : (t.insert a).get? id = some b := by
  rw [get?_insert, if_neg (Nat.ne_of_lt (lt_next_of_get? h)), h]

theorem get?_modifyWhere (t : Table α) (p : ℕ → α → Prop) [∀ i a, Decidable (p i a)] (f : α → α)
    (id : ℕ) :
    (t.modifyWhere p f).get? id = (t.get? id).map fun a => if p id a then f a else a := by
  ext b
  rw [get?_eq_some_iff, map_eq_some_iff]
  simp only [modifyWhere, List.mem_map, Prod.mk.injEq, Prod.exists, get?_eq_some_iff]
  constructor
  · rintro ⟨i, a, hm, rfl, rfl⟩
    exact ⟨a, hm, rfl⟩
  · rintro ⟨a, hm, rfl⟩
    exact ⟨id, a, hm, rfl, rfl⟩

@[simp] theorem get?_map {β : Type*} (t : Table α) (f : α → β) (id : ℕ) :
    (t.map f).get? id = (t.get? id).map f := by
  simp only [get?, map, find?_map, Option.map_map]
  rfl

theorem get?_modify (t : Table α) (id : ℕ) (f : α → α) (j : ℕ) :
    (t.modify id f).get? j = (t.get? j).map fun a => if j = id then f a else a :=
  get?_modifyWhere t _ f j

theorem get?_modify_self (t : Table α) (id : ℕ) (f : α → α) :
    (t.modify id f).get? id = (t.get? id).map f := by
  simp [get?_modify]

theorem get?_modify_eq_some {f : α → α} (h : t.get? id = some a) :
    (t.modify id f).get? id = some (f a) := by
  rw [get?_modify_self, h, map_some]

theorem get?_modify_of_ne (t : Table α) (f : α → α) (h : j ≠ id) :
    (t.modify id f).get? j = t.get? j := by
  simp [get?_modify, h]

theorem get?_modify_of_get? (f : α → α) (h : t.get? id = some a) (j : ℕ) :
    (t.modify id f).get? j = if j = id then some (f a) else t.get? j := by
  by_cases hj : j = id
  · subst hj
    rw [get?_modify_self, if_pos rfl, h]
    rfl
  · rw [get?_modify_of_ne _ _ hj, if_neg hj]

/-- A row after the update of one: the updated row, or another one as it was. -/
theorem get?_modify_cases {f : α → α} (ha : t.get? id = some a)
    (h : (t.modify id f).get? j = some b) : j = id ∧ b = f a ∨ j ≠ id ∧ t.get? j = some b := by
  rw [get?_modify_of_get? f ha] at h
  split at h
  case isTrue hj => exact .inl ⟨hj, (some.inj h).symm⟩
  case isFalse hj => exact .inr ⟨hj, h⟩

/-- A row survives the update of one, with a property that the update gives it. -/
theorem exists_get?_modify (f : α → α) {P : α → Prop}
    (hb : t.get? j = some b) (hkp : j ≠ id → P b) (hnew : j = id → P (f b)) :
    ∃ b', (t.modify id f).get? j = some b' ∧ P b' := by
  by_cases hj : j = id
  · refine ⟨f b, ?_, hnew hj⟩
    rw [hj, get?_modify_self, ← hj, hb]
    rfl
  · exact ⟨b, by rw [get?_modify_of_ne _ _ hj, hb], hkp hj⟩

/-- A row after an insertion: the new row, or one that was there. -/
theorem get?_insert_cases (h : (t.insert a).get? j = some b) :
    j = t.next ∧ b = a ∨ t.get? j = some b := by
  rw [get?_insert] at h
  split at h
  · rename_i hj
    exact .inl ⟨hj, (some.inj h).symm⟩
  · exact .inr h

/-- A row after insertions: one that was there, or a new one under a new key. -/
theorem get?_foldl_insert_cases {l : List α}
    (h : (l.foldl insert t).get? j = some b) : t.get? j = some b ∨ t.next ≤ j ∧ b ∈ l := by
  induction l generalizing t with
  | nil => exact .inl h
  | cons a _ ih =>
    obtain hold | ⟨hj, hb⟩ := ih h
    · obtain ⟨rfl, rfl⟩ | hold := get?_insert_cases hold
      · exact .inr ⟨le_rfl, mem_cons_self⟩
      · exact .inl hold
    · exact .inr ⟨(Nat.le_succ _).trans hj, mem_cons_of_mem a hb⟩

theorem next_foldl_insert (t : Table α) (l : List α) :
    (l.foldl insert t).next = t.next + l.length := by
  induction l generalizing t with
  | nil => rfl
  | cons _ _ ih => rw [foldl_cons, ih, insert, length_cons, Nat.add_right_comm, Nat.add_assoc]

/-- An update that leaves its rows as they are changes nothing. -/
theorem modifyWhere_eq_self [∀ i a, Decidable (p i a)] {f : α → α}
    (h : ∀ id a, t.get? id = some a → p id a → f a = a) : t.modifyWhere p f = t := by
  have hrs : (t.rows.map fun r => (r.1, if p r.1 r.2 then f r.2 else r.2)) = t.rows := by
    conv_rhs => rw [← List.map_id t.rows]
    refine map_congr_left fun r hr => Prod.ext rfl ?_
    exact ite_eq_right_iff.2 (h r.1 r.2 (exists_get?_of_mem hr))
  simp [modifyWhere, hrs]

theorem modify_eq_self {f : α → α} (h : t.get? id = some a) (hf : f a = a) : t.modify id f = t := by
  refine modifyWhere_eq_self fun j b hb hj => ?_
  obtain rfl := hj
  rwa [← mem_unique h hb]

/-- Two updates of one row. -/
theorem modify_modify (t : Table α) (id : ℕ) (f g : α → α) :
    (t.modify id f).modify id g = t.modify id (g ∘ f) := by
  have hr (r : ℕ × α) : (if r.1 = id then g (if r.1 = id then f r.2 else r.2) else
      if r.1 = id then f r.2 else r.2) = if r.1 = id then (g ∘ f) r.2 else r.2 := by
    split <;> rfl
  simp only [modify, modifyWhere, List.map_map, comp_def, hr]

/-- The first row that meets a condition is still the first after it was changed to another row
that meets it. -/
theorem first?_modify [∀ i a, Decidable (p i a)] {i : ℕ} {a a' : α}
    (h : t.first? p = some (i, a)) (ha' : p i a') :
    (t.modify i fun _ => a').first? p = some (i, a') := by
  obtain ⟨hg, -, hlea⟩ := first?_eq_some_iff.1 h
  refine first?_eq_some_iff.2 ⟨get?_modify_eq_some hg, ha', fun j b hb hj => ?_⟩
  obtain ⟨rfl, -⟩ | ⟨-, hb⟩ := get?_modify_cases hg hb
  · exact le_rfl
  · exact hlea j b hb hj

/-- A row of a table splits the rows into those before and those after it, which have other keys. -/
theorem exists_split (h : t.get? id = some a) :
    ∃ l₁ l₂, t.rows = l₁ ++ (id, a) :: l₂ ∧ (∀ r ∈ l₁, r.1 ≠ id) ∧ ∀ r ∈ l₂, r.1 ≠ id := by
  obtain ⟨l₁, l₂, e⟩ := append_of_mem (get?_eq_some_iff.1 h)
  refine ⟨l₁, l₂, e, ?_, ?_⟩
  all_goals
    have hs := t.sorted
    rw [e, map_append, map_cons, pairwise_append, pairwise_cons] at hs
    intro r hr
  · exact Nat.ne_of_lt (hs.2.2 r.1 (List.mem_map_of_mem hr) id (by simp))
  · exact Nat.ne_of_gt (hs.2.1.1 r.1 (List.mem_map_of_mem hr))

/-- What is collected at the row under one key, if there is one. -/
theorem filterMap_key {β : Type*} (h : t.get? id = some a) (b : β) :
    t.rows.filterMap (fun r => if r.1 = id then some b else none) = [b] := by
  obtain ⟨l₁, l₂, hrs, h₁, h₂⟩ := exists_split h
  rw [hrs, filterMap_append, filterMap_cons, if_pos rfl,
    filterMap_eq_nil_iff.2 fun r hr => if_neg (h₁ r hr),
    filterMap_eq_nil_iff.2 fun r hr => if_neg (h₂ r hr)]
  rfl

/-- An update that concerns only a new row is an insertion of the updated row. -/
theorem modifyWhere_insert [∀ i a, Decidable (p i a)]
    (hnew : p t.next a) (hold : ∀ id b, t.get? id = some b → ¬p id b) (f : α → α) :
    (t.insert a).modifyWhere p f = t.insert (f a) := by
  have hrs := congrArg rows (modifyWhere_eq_self (f := f) fun id b hb hp => absurd hp (hold id b hb))
  simp only [modifyWhere] at hrs
  simp [modifyWhere, insert, hrs, hnew]

theorem get?_eraseWhere_eq_some [∀ i a, Decidable (p i a)]
    : (t.eraseWhere p).get? id = some a ↔ t.get? id = some a ∧ ¬p id a := by
  rw [get?_eq_some_iff, get?_eq_some_iff]
  simp [eraseWhere]

/-! ## Sums -/

theorem sum_congr (h : ∀ id a, t.get? id = some a → f id a = g id a) : t.sum f = t.sum g := by
  unfold sum
  congr 1
  exact map_congr_left fun r hr => h _ _ (exists_get?_of_mem hr)

theorem sum_nonneg (h : ∀ id a, t.get? id = some a → 0 ≤ f id a) : 0 ≤ t.sum f := by
  refine List.sum_nonneg ?_
  intro x hx
  obtain ⟨r, hr, rfl⟩ := List.mem_map.1 hx
  exact h _ _ (exists_get?_of_mem hr)

theorem sum_le_sum (h : ∀ id a, t.get? id = some a → f id a ≤ g id a) : t.sum f ≤ t.sum g :=
  List.sum_le_sum fun _ hr => h _ _ (exists_get?_of_mem hr)

theorem sum_eq_zero (h : ∀ id a, t.get? id = some a → f id a = 0) :
    t.sum f = 0 := by
  rw [sum_congr h]
  simp [sum]

@[simp] theorem sum_empty (f : ℕ → α → ℤ) : (empty : Table α).sum f = 0 := rfl

theorem sum_add (t : Table α) (f g : ℕ → α → ℤ) :
    t.sum (fun i a => f i a + g i a) = t.sum f + t.sum g := by
  unfold sum
  exact sum_map_add

theorem sum_insert (t : Table α) (a : α) (f : ℕ → α → ℤ) :
    (t.insert a).sum f = t.sum f + f t.next a := by
  simp [sum, insert]

theorem sum_foldl_insert (t : Table α) (l : List α) (f : α → ℤ) :
    (l.foldl insert t).sum (fun _ a => f a) = t.sum (fun _ a => f a) + (l.map f).sum := by
  induction l generalizing t with
  | nil => simp
  | cons _ _ ih =>
    rw [foldl_cons, ih, sum_insert, map_cons, sum_cons]
    ring

theorem sum_modifyWhere (t : Table α) (p : ℕ → α → Prop) [∀ i a, Decidable (p i a)] (f : α → α)
    (g : ℕ → α → ℤ) :
    (t.modifyWhere p f).sum g = t.sum fun i a => g i (if p i a then f a else a) := by
  simp [sum, modifyWhere, comp_def]

/-- Two functions that agree off one key have sums that differ by their values there. -/
theorem sum_update (h : t.get? id = some a)
    (hfg : ∀ j b, t.get? j = some b → j ≠ id → g j b = f j b) :
    t.sum g = t.sum f - f id a + g id a := by
  obtain ⟨l₁, l₂, e, h₁, h₂⟩ := exists_split h
  have mem : ∀ r ∈ t.rows, t.get? r.1 = some r.2 := fun r hr => exists_get?_of_mem hr
  rw [e] at mem
  have e₁ : l₁.map (fun r => g r.1 r.2) = l₁.map (fun r => f r.1 r.2) :=
    map_congr_left fun r hr => hfg _ _ (mem r (by simp [hr])) (h₁ r hr)
  have e₂ : l₂.map (fun r => g r.1 r.2) = l₂.map (fun r => f r.1 r.2) :=
    map_congr_left fun r hr => hfg _ _ (mem r (by simp [hr])) (h₂ r hr)
  simp only [sum, e, map_append, map_cons, sum_append, sum_cons, e₁, e₂]
  ring

/-- A row's value is at most the sum of values that are not negative. -/
theorem le_sum (h : t.get? id = some a) {f : ℕ → α → ℤ}
    (hf : ∀ j b, t.get? j = some b → 0 ≤ f j b) : f id a ≤ t.sum f := by
  have hr : 0 ≤ t.sum fun j b => if j = id then 0 else f j b := by
    refine sum_nonneg fun j b hb => ?_
    split
    · exact le_rfl
    · exact hf j b hb
  rw [sum_update h fun j b _ hj => if_neg hj, if_pos rfl] at hr
  omega

theorem sum_modify (h : t.get? id = some a) (f : α → α)
    (g : ℕ → α → ℤ) : (t.modify id f).sum g = t.sum g - g id a + g id (f a) := by
  rw [modify, sum_modifyWhere, sum_update h (f := g)]
  · simp
  · intro j b _ hj
    simp [hj]

/-- Deleting rows on which `g` vanishes keeps the sum of `g`. -/
theorem sum_eraseWhere_of_eq_zero [∀ i a, Decidable (p i a)]
    {g : ℕ → α → ℤ} (h : ∀ id a, t.get? id = some a → p id a → g id a = 0) :
    (t.eraseWhere p).sum g = t.sum g := by
  have mem : ∀ r ∈ t.rows, p r.1 r.2 → g r.1 r.2 = 0 := fun r hr => h _ _ (exists_get?_of_mem hr)
  change ((t.rows.filter fun r => ¬p r.1 r.2).map fun r => g r.1 r.2).sum = _
  unfold sum
  revert mem
  induction t.rows with
  | nil => simp
  | cons r _ ih =>
    intro mem
    have ih := ih fun r' hr' => mem r' (mem_cons_of_mem _ hr')
    by_cases hp : p r.1 r.2
    · simpa [hp, mem r (by simp) hp] using ih
    · simpa [hp] using ih

/-! ## Counts -/

section Count

variable {p q : ℕ → α → Prop} [∀ i a, Decidable (p i a)] [∀ i a, Decidable (q i a)]

variable {t : Table α}

theorem count_le_count (h : ∀ id a, t.get? id = some a → p id a → q id a) :
    t.count p ≤ t.count q := by
  refine sum_le_sum fun id a ha => ?_
  have := h id a ha
  split <;> split <;> simp_all

theorem count_insert (t : Table α) (a : α) :
    (t.insert a).count p = t.count p + if p t.next a then 1 else 0 :=
  sum_insert t a _

theorem count_modify (h : t.get? id = some a) (f : α → α) :
    (t.modify id f).count p = t.count p - (if p id a then 1 else 0) + if p id (f a) then 1 else 0 :=
  sum_modify h f _

/-- The keys of the rows that satisfy `p`. -/
def keysWhere (t : Table α) (p : ℕ → α → Prop) [∀ i a, Decidable (p i a)] : List ℕ :=
  (t.rows.filter fun r => p r.1 r.2).map Prod.fst

theorem mem_keysWhere : id ∈ t.keysWhere p ↔ ∃ a, t.get? id = some a ∧ p id a := by
  simp only [keysWhere, List.mem_map, mem_filter, decide_eq_true_eq, Prod.exists, get?_eq_some_iff]
  constructor
  · rintro ⟨i, a, h, rfl⟩
    exact ⟨a, h⟩
  · rintro ⟨a, h⟩
    exact ⟨id, a, h, rfl⟩

theorem nodup_keysWhere (t : Table α) : (t.keysWhere p).Nodup :=
  (t.sorted.sublist (filter_sublist.map _)).imp ne_of_lt

theorem count_eq_length (t : Table α) : t.count p = (t.keysWhere p).length := by
  unfold count sum keysWhere
  induction t.rows with
  | nil => rfl
  | cons r _ ih =>
    rw [map_cons, sum_cons, ih, filter_cons]
    by_cases hp : p r.1 r.2
    · simp [hp, add_comm]
    · simp [hp]

theorem count_eq_zero_iff : t.count p = 0 ↔ ∀ id a, t.get? id = some a → ¬p id a := by
  rw [count_eq_length, Int.natCast_eq_zero, length_eq_zero_iff, eq_nil_iff_forall_not_mem]
  simp only [mem_keysWhere, not_exists, not_and]

/-- A row that satisfies `q` and not `p` makes room for one more `p` below the count of `q`. -/
theorem count_add_one_le (h : ∀ id a, t.get? id = some a → p id a → q id a)
    (ha : t.get? id = some a) (hp : ¬p id a) (hq : q id a) : t.count p + 1 ≤ t.count q := by
  have hnew : id ∉ t.keysWhere p := by
    intro hid
    obtain ⟨b, hb, hpb⟩ := mem_keysWhere.1 hid
    exact hp (mem_unique ha hb ▸ hpb)
  have hsub : id :: t.keysWhere p ⊆ t.keysWhere q := by
    refine cons_subset.2 ⟨mem_keysWhere.2 ⟨a, ha, hq⟩, fun j hj => ?_⟩
    obtain ⟨b, hb, hpb⟩ := mem_keysWhere.1 hj
    exact mem_keysWhere.2 ⟨b, hb, h j b hb hpb⟩
  have hle := (subperm_of_subset (nodup_cons.2 ⟨hnew, t.nodup_keysWhere⟩) hsub).length_le
  rw [count_eq_length, count_eq_length]
  exact_mod_cast hle

/-- **Counting across tables**: when every row that satisfies `q` after a change, other than those
under the keys `new`, comes from a row that satisfied `p`, the count grows by no more than these. -/
theorem count_le_count_add {t t' : Table α} (new : List ℕ)
    (h : ∀ id a', t'.get? id = some a' → q id a' → id ∈ new ∨ ∃ a, t.get? id = some a ∧ p id a) :
    t'.count q ≤ t.count p + new.length := by
  have hsub : t'.keysWhere q ⊆ t.keysWhere p ++ new := by
    intro id hid
    obtain ⟨a', ha', hq⟩ := mem_keysWhere.1 hid
    rcases h id a' ha' hq with hnew | hold
    · exact mem_append_right _ hnew
    · exact mem_append_left _ (mem_keysWhere.2 hold)
  have hle := (subperm_of_subset t'.nodup_keysWhere hsub).length_le
  rw [length_append] at hle
  rw [count_eq_length, count_eq_length]
  exact_mod_cast hle

end Count

end Table

end LmmApi
