import LmmApi.Lib.Table

/-!
# Tables with unique indexes

A `UniqueTable α keys` is a table whose rows have no key in common. The keys of a row are the values
under its unique indexes; a column that is NULL gives no key, and several indexes are one list of
keys that carry the name of their index. The invariant is part of the type. A write that would
break it is refused, which is what the database does.
-/

namespace LmmApi

open List Option Table

variable {α κ : Type*}

/-- A table with unique indexes. -/
structure UniqueTable (α : Type*) {κ : Type*} (keys : α → List κ) where
  table : Table α
  unique : ∀ i j a b k, table.get? i = some a → table.get? j = some b → k ∈ keys a → k ∈ keys b →
    i = j

namespace UniqueTable

variable {keys : α → List κ} {t t' : UniqueTable α keys} {id j : ℕ} {a b : α}

def empty : UniqueTable α keys := ⟨Table.empty, fun _ _ _ _ _ h => nomatch h⟩

/-- The row with primary key `id`. -/
def get? (t : UniqueTable α keys) (id : ℕ) : Option α := t.table.get? id

/-- The first row that satisfies `p`. -/
def first? (t : UniqueTable α keys) (p : ℕ → α → Prop) [∀ i a, Decidable (p i a)] :
    Option (ℕ × α) := t.table.first? p

/-- Some row other than `id` has a key of `a`. -/
def Taken (t : Table α) (keys : α → List κ) (id : ℕ) (a : α) : Prop :=
  t.Any fun j b => j ≠ id ∧ ∃ k ∈ keys a, k ∈ keys b

instance [DecidableEq κ] (t : Table α) (id : ℕ) (a : α) : Decidable (Taken t keys id a) :=
  inferInstanceAs (Decidable (t.Any _))

theorem not_taken {t : Table α} (h : ¬Taken t keys id a) (hb : t.get? j = some b) {k : κ}
    (ha : k ∈ keys a) (hk : k ∈ keys b) : j = id := by
  by_contra hj
  exact h (any_iff.2 ⟨j, b, hb, hj, k, ha, hk⟩)

/-- A row with keys that are not taken keeps the keys unique. -/
theorem unique_of_not_taken {t' : Table α} (h : ¬Taken t.table keys id a)
    (hrow : ∀ {j b}, t'.get? j = some b → j = id ∧ b = a ∨ t.table.get? j = some b)
    (i j : ℕ) (b c : α) (k : κ) (hb : t'.get? i = some b) (hc : t'.get? j = some c)
    (hkb : k ∈ keys b) (hkc : k ∈ keys c) : i = j := by
  rcases hrow hb with ⟨rfl, rfl⟩ | hold <;> rcases hrow hc with ⟨rfl, rfl⟩ | hold'
  · rfl
  · exact (not_taken h hold' hkb hkc).symm
  · exact not_taken h hold hkc hkb
  · exact t.unique i j b c k hold hold' hkb hkc

section Write

variable [DecidableEq κ]

/-- Add a row, unless one of its keys is taken. -/
def insert? (t : UniqueTable α keys) (a : α) : Option (UniqueTable α keys) :=
  if h : Taken t.table keys t.table.next a then none
  else some
    { table := t.table.insert a
      unique := unique_of_not_taken h get?_insert_cases }

/-- Add rows one after the other, unless a key is taken. -/
def insertAll? : UniqueTable α keys → List α → Option (UniqueTable α keys)
  | t, [] => some t
  | t, a :: l => (t.insert? a).bind fun t' => t'.insertAll? l

/-- Replace a row, unless another one has one of the new keys. -/
def set? (t : UniqueTable α keys) (id : ℕ) (a : α) : Option (UniqueTable α keys) :=
  if h : Taken t.table keys id a then none
  else some
    { table := t.table.modify id fun _ => a
      unique := by
        refine unique_of_not_taken h fun {j b} hb => ?_
        by_cases hj : j = id
        · subst hj
          rw [get?_modify_self, map_eq_some_iff] at hb
          obtain ⟨_, -, rfl⟩ := hb
          exact .inl ⟨rfl, rfl⟩
        · rw [get?_modify_of_ne _ _ hj] at hb
          exact .inr hb }

theorem insert?_eq_some (h : t.insert? a = some t') :
    ¬Taken t.table keys t.table.next a ∧ t'.table = t.table.insert a := by
  unfold insert? at h
  split at h
  · cases h
  · rename_i hfr
    cases h
    exact ⟨hfr, rfl⟩

/-- A row that cannot be added has a key of another row. -/
theorem exists_of_insert?_eq_none (h : t.insert? a = none) :
    ∃ j b, t.get? j = some b ∧ ∃ k ∈ keys a, k ∈ keys b := by
  unfold insert? at h
  split at h
  · rename_i htak
    obtain ⟨j, b, hb, -, hk⟩ := any_iff.1 htak
    exact ⟨j, b, hb, hk⟩
  · cases h

theorem set?_eq_some (h : t.set? id a = some t') :
    ¬Taken t.table keys id a ∧ t'.table = t.table.modify id fun _ => a := by
  unfold set? at h
  split at h
  · cases h
  · rename_i hfr
    cases h
    exact ⟨hfr, rfl⟩

end Write

/-- A row after an insertion. -/
theorem get?_cases_of_insert (hins : t'.table = t.table.insert a) (h : t'.get? j = some b) :
    b = a ∨ t.get? j = some b := by
  rw [get?, hins] at h
  exact (get?_insert_cases h).imp_left And.right

/-- Rewrite the rows that satisfy `p`, with the keys they have. -/
def modifyWhere (t : UniqueTable α keys) (p : ℕ → α → Prop) [∀ i a, Decidable (p i a)]
    (f : α → α) (hf : ∀ a, keys (f a) = keys a) : UniqueTable α keys where
  table := t.table.modifyWhere p f
  unique := by
    have hrow {j : ℕ} {b : α} (hb : (t.table.modifyWhere p f).get? j = some b) :
        ∃ a, t.table.get? j = some a ∧ keys b = keys a := by
      rw [get?_modifyWhere, map_eq_some_iff] at hb
      obtain ⟨a, ha, rfl⟩ := hb
      refine ⟨a, ha, ?_⟩
      split
      · exact hf a
      · rfl
    intro i j b c k hb hc hkb hkc
    obtain ⟨b', hb', hkeysb⟩ := hrow hb
    obtain ⟨c', hc', hkeysc⟩ := hrow hc
    exact t.unique i j b' c' k hb' hc' (hkeysb ▸ hkb) (hkeysc ▸ hkc)

/-- Rewrite one row, with the keys it has. -/
def modify (t : UniqueTable α keys) (id : ℕ) (f : α → α) (hf : ∀ a, keys (f a) = keys a) :
    UniqueTable α keys := t.modifyWhere (fun i _ => i = id) f hf

/-! ## The rows after a write -/

theorem get?_modify (t : UniqueTable α keys) (f : α → α)
    (hf : ∀ a, keys (f a) = keys a) (h : t.get? id = some a) (j : ℕ) :
    (t.modify id f hf).get? j = if j = id then some (f a) else t.get? j :=
  get?_modify_of_get? f h j

theorem get?_of_set? [DecidableEq κ] (h : t.set? id b = some t') (ha : t.get? id = some a) (j : ℕ) :
    t'.get? j = if j = id then some b else t.get? j := by
  change t'.table.get? j = _
  rw [(set?_eq_some h).2]
  exact get?_modify_of_get? _ ha j

theorem get?_of_insert? [DecidableEq κ] (h : t.insert? a = some t') (j : ℕ) :
    t'.get? j = if j = t.table.next then some a else t.get? j := by
  change t'.table.get? j = _
  rw [(insert?_eq_some h).2, get?_insert]
  rfl

section InsertAll

variable [DecidableEq κ] {l : List α}

theorem get?_of_insertAll? (h : t.insertAll? l = some t') (ha : t.get? j = some a) :
    t'.get? j = some a := by
  induction l generalizing t with
  | nil => rwa [← some.inj h]
  | cons _ _ ih =>
    obtain ⟨t₁, hins, h⟩ := bind_eq_some_iff.1 h
    refine ih h ?_
    rw [get?_of_insert? hins, if_neg (Nat.ne_of_lt (lt_next_of_get? ha)), ha]

theorem table_insertAll? (h : t.insertAll? l = some t') :
    t'.table = l.foldl Table.insert t.table := by
  induction l generalizing t with
  | nil => rw [some.inj h, foldl_nil]
  | cons _ _ ih =>
    obtain ⟨t₁, hins, h⟩ := bind_eq_some_iff.1 h
    rw [ih h, (insert?_eq_some hins).2, foldl_cons]

/-- A row after rows were added: one of them, or one that was there. -/
theorem get?_insertAll?_cases (h : t.insertAll? l = some t') (ha : t'.get? j = some a) :
    t.get? j = some a ∨ t.get? j = none ∧ a ∈ l := by
  rw [get?, table_insertAll? h] at ha
  obtain hold | ⟨hj, hm⟩ := get?_foldl_insert_cases ha
  · exact .inl hold
  · refine .inr ⟨eq_none_iff_forall_ne_some.2 fun b hb => ?_, hm⟩
    exact (lt_next_of_get? hb).not_ge hj

theorem sum_insertAll? (h : t.insertAll? l = some t') (f : α → ℤ) :
    (t'.table.sum fun _ a => f a) = (t.table.sum fun _ a => f a) + (l.map f).sum := by
  rw [table_insertAll? h, sum_foldl_insert]

end InsertAll

/-! ## Keys -/

/-- At most one row has a key. -/
theorem count_key_le_one (t : UniqueTable α keys) (k : κ) {p : ℕ → α → Prop}
    [∀ i a, Decidable (p i a)] (hp : ∀ i a, p i a → k ∈ keys a) : t.table.count p ≤ 1 := by
  have hs : ∀ i ∈ t.table.keysWhere p, ∀ j ∈ t.table.keysWhere p, i = j := by
    intro i hi j hj
    obtain ⟨a, ha, hpa⟩ := mem_keysWhere.1 hi
    obtain ⟨b, hb, hpb⟩ := mem_keysWhere.1 hj
    exact t.unique i j a b k ha hb (hp i a hpa) (hp j b hpb)
  have hnd := t.table.nodup_keysWhere (p := p)
  rw [Table.count_eq_length]
  match hkeys : t.table.keysWhere p with
  | [] => simp
  | [_] => simp
  | i :: j :: l =>
    rw [hkeys] at hs hnd
    have hij : i = j := hs i (by simp) j (by simp)
    simp [hij] at hnd

end UniqueTable

end LmmApi
