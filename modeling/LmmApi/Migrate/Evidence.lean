import Mathlib.Algebra.Order.Ring.Int
import Mathlib.Data.Set.Function

/-!
# The evidence of a migrated table

`table_hash` hashes a table as a stream of frames with their lengths in front: the name, the number
of rows, and the hash of each row, which is in turn a stream of tagged frames. Both databases are
compared by it, so the streams must determine the table. `TableHasher` gives the same hash row by
row.
-/

namespace LmmApi.Migrate

abbrev Bytes := List UInt8

abbrev Hash := Vector UInt8 32

open List

/-- A value in the form that both databases are compared in. -/
inductive CanonicalValue
  | null
  | bool (value : Bool)
  | integer (value : Int64)
  | decimal (value : String)
  | text (value : String)
  | json (value : String)
  | timestamp (value : String)
  | bytes (value : Bytes)

/-- `to_be_bytes` of a number of so many bytes. -/
def toBeBytes : ℕ → ℕ → Bytes
  | 0, _ => []
  | width + 1, n => toBeBytes width (n / 256) ++ [UInt8.ofNat n]

def asBytes (s : String) : Bytes := s.toByteArray.data.toList

namespace CanonicalValue

def tag : CanonicalValue → UInt8
  | .null => 0
  | .bool _ => 1
  | .integer _ => 2
  | .decimal _ => 3
  | .text _ => 4
  | .json _ => 5
  | .timestamp _ => 6
  | .bytes _ => 7

def toBytes : CanonicalValue → Bytes
  | .null => []
  | .bool value => asBytes (if value then "1" else "0")
  | .integer value => toBeBytes 8 value.toUInt64.toNat
  | .decimal value | .text value | .json value | .timestamp value => asBytes value
  | .bytes value => value

end CanonicalValue

/-- Bytes after their length, a `u64`. -/
def frame (bytes : Bytes) : Bytes := toBeBytes 8 bytes.length ++ bytes

/-- What `row_hash` hashes. -/
def rowText (values : List CanonicalValue) : Bytes :=
  asBytes "lmm-db-row-v1\x00" ++ (toBeBytes 8 values.length ++
    values.flatMap fun value => value.tag :: frame value.toBytes)

/-- What stands before the rows. -/
def tableHead (table : String) (count : UInt64) : Bytes :=
  asBytes "lmm-db-table-v1\x00" ++ (frame (asBytes table) ++ toBeBytes 8 count.toNat)

variable (blake3 : Bytes → Hash)

def rowHash (values : List CanonicalValue) : Hash := blake3 (rowText values)

def rowFrame (row : List CanonicalValue) : Bytes := frame (rowHash blake3 row).toList

/-- What `table_hash` hashes. -/
def tableText (table : String) (rows : List (List CanonicalValue)) : Bytes :=
  tableHead table (.ofNat rows.length) ++ rows.flatMap (rowFrame blake3)

def tableHash (table : String) (rows : List (List CanonicalValue)) : UInt64 × Hash :=
  (.ofNat rows.length, blake3 (tableText blake3 table rows))

/-- The hasher that is given the rows one by one, with the bytes that its `blake3::Hasher` got. -/
structure TableHasher where
  expectedCount : UInt64
  count : UInt64
  hasher : Bytes

namespace TableHasher

def new (table : String) (expectedCount : UInt64) : TableHasher :=
  ⟨expectedCount, 0, tableHead table expectedCount⟩

def update (h : TableHasher) (values : List CanonicalValue) : TableHasher :=
  { h with count := h.count + 1, hasher := h.hasher ++ rowFrame blake3 values }

/-- A debug build panics if the counts differ. -/
def finish (h : TableHasher) : UInt64 × Hash := (h.count, blake3 h.hasher)

end TableHasher

/-! ## Frames -/

theorem length_toBeBytes (width n : ℕ) : (toBeBytes width n).length = width := by
  induction width generalizing n with
  | zero => rfl
  | succ width ih => rw [toBeBytes, length_append, ih, length_singleton]

theorem toBeBytes_inj {width n m : ℕ} (hn : n < 256 ^ width) (hm : m < 256 ^ width)
    (h : toBeBytes width n = toBeBytes width m) : n = m := by
  induction width generalizing n m with
  | zero => omega
  | succ width ih =>
    obtain ⟨hhi, hlo⟩ := append_inj h (by rw [length_toBeBytes, length_toBeBytes])
    have hdiv := ih (Nat.div_lt_of_lt_mul (by rwa [← Nat.pow_succ']))
      (Nat.div_lt_of_lt_mul (by rwa [← Nat.pow_succ'])) hhi
    have hmod : n % 256 = m % 256 := by simpa using congrArg UInt8.toNat (cons.inj hlo).1
    omega

variable {a b r s : Bytes}

theorem frame_inj (ha : a.length < 2 ^ 64) (hb : b.length < 2 ^ 64)
    (h : frame a ++ r = frame b ++ s) : a = b ∧ r = s := by
  rw [frame, frame, append_assoc, append_assoc] at h
  obtain ⟨hlen, h⟩ := append_inj h (by rw [length_toBeBytes, length_toBeBytes])
  exact append_inj h (@toBeBytes_inj 8 _ _ ha hb hlen)

/-- Lists of frames are read in one way only. -/
theorem flatMap_inj {α : Type} {f : α → Bytes} {P : α → Prop}
    (hf : ∀ a b r s, P a → P b → f a ++ r = f b ++ s → a = b ∧ r = s) {l l' : List α}
    (hlen : l.length = l'.length) (hl : ∀ a ∈ l, P a) (hl' : ∀ a ∈ l', P a)
    (h : l.flatMap f = l'.flatMap f) : l = l' := by
  induction l generalizing l' with
  | nil => exact (eq_nil_of_length_eq_zero hlen.symm).symm
  | cons a l ih =>
    obtain ⟨b, l', rfl⟩ := exists_cons_of_length_eq_add_one hlen.symm
    rw [forall_mem_cons] at hl hl'
    obtain ⟨rfl, hrest⟩ := hf a b _ _ hl.1 hl'.1 h
    rw [ih (Nat.succ.inj hlen) hl.2 hl'.2 hrest]

theorem asBytes_inj {s t : String} (h : asBytes s = asBytes t) : s = t :=
  String.toByteArray_inj.1 (ByteArray.ext (Array.toList_inj.1 h))

theorem value_inj {v w : CanonicalValue} (ht : v.tag = w.tag) (hb : v.toBytes = w.toBytes) :
    v = w := by
  cases v <;> cases w <;> simp [CanonicalValue.tag] at ht
  case null.null => rfl
  case bool.bool v w =>
    cases v <;> cases w <;> first | rfl | exact absurd hb (by decide)
  case integer.integer v w =>
    have h := @toBeBytes_inj 8 _ _ v.toUInt64.toNat_lt w.toUInt64.toNat_lt hb
    exact congrArg (CanonicalValue.integer ∘ Int64.ofUInt64) (UInt64.toNat_inj.1 h)
  case bytes.bytes => exact congrArg _ hb
  all_goals exact congrArg _ (asBytes_inj hb)

/-! ## Tables -/

/-- Fewer than 2^64 columns and bytes. -/
def RowFits (row : List CanonicalValue) : Prop :=
  row.length < 2 ^ 64 ∧ ∀ value ∈ row, value.toBytes.length < 2 ^ 64

theorem rowText_inj {row row' : List CanonicalValue} (hfit : RowFits row) (hfit' : RowFits row')
    (h : rowText row = rowText row') : row = row' := by
  obtain ⟨hlen, h⟩ := append_inj (append_cancel_left h) (by rw [length_toBeBytes, length_toBeBytes])
  refine flatMap_inj (fun v w r s hv hw h => ?_) (@toBeBytes_inj 8 _ _ hfit.1 hfit'.1 hlen)
    hfit.2 hfit'.2 h
  obtain ⟨htag, h⟩ := cons.inj h
  obtain ⟨hbytes, h⟩ := frame_inj hv hw h
  exact ⟨value_inj htag hbytes, h⟩

/-- Fewer than 2^64 rows, columns and bytes. -/
structure TableFits (table : String) (rows : List (List CanonicalValue)) : Prop where
  name : (asBytes table).length < 2 ^ 64
  count : rows.length < 2 ^ 64
  rows : ∀ row ∈ rows, RowFits row

/-- The texts that are hashed for a table. -/
def hashed (table : String) (rows : List (List CanonicalValue)) : Set Bytes :=
  {text | text = tableText blake3 table rows ∨ ∃ row ∈ rows, text = rowText row}

variable {blake3}

/-- The evidence determines the table, unless two of the hashed texts collide. -/
theorem tableHash_inj {table table' : String} {rows rows' : List (List CanonicalValue)}
    (hfree : Set.InjOn blake3 (hashed blake3 table rows ∪ hashed blake3 table' rows'))
    (hfit : TableFits table rows) (hfit' : TableFits table' rows')
    (h : tableHash blake3 table rows = tableHash blake3 table' rows') :
    table = table' ∧ rows = rows' := by
  obtain ⟨hcount, hhash⟩ := Prod.mk.inj h
  have htext := hfree (.inl (.inl rfl)) (.inr (.inl rfl)) hhash
  have hlen : rows.length = rows'.length := by
    have hn := congrArg UInt64.toNat hcount
    have hlt := hfit.count
    have hlt' := hfit'.count
    simp only [UInt64.toNat_ofNat'] at hn
    omega
  rw [tableText, tableText, tableHead, tableHead, hlen, append_assoc, append_assoc, append_assoc,
    append_assoc, append_right_inj] at htext
  obtain ⟨hname, htext⟩ := frame_inj hfit.name hfit'.name htext
  refine ⟨asBytes_inj hname, flatMap_inj (P := fun row => RowFits row ∧
    rowText row ∈ hashed blake3 table rows ∪ hashed blake3 table' rows')
    (fun row row' r s hrow hrow' h => ?_) hlen (fun row hrow => ?_) (fun row hrow => ?_)
    (append_cancel_left htext)⟩
  · obtain ⟨hh, h⟩ := frame_inj (by simp) (by simp) h
    exact ⟨rowText_inj hrow.1 hrow'.1 (hfree hrow.2 hrow'.2 (Vector.toList_inj.1 hh)), h⟩
  · exact ⟨hfit.rows row hrow, .inl (.inr ⟨row, hrow, rfl⟩)⟩
  · exact ⟨hfit'.rows row hrow, .inr (.inr ⟨row, hrow, rfl⟩)⟩

theorem foldl_update (rows : List (List CanonicalValue)) (h : TableHasher) :
    rows.foldl (TableHasher.update blake3) h = ⟨h.expectedCount, h.count + .ofNat rows.length,
      h.hasher ++ rows.flatMap (rowFrame blake3)⟩ := by
  induction rows generalizing h with
  | nil => simp
  | cons row rows ih =>
    rw [foldl_cons, ih]
    simp [TableHasher.update, UInt64.ofNat_add, UInt64.add_comm, UInt64.add_assoc]

/-- **Equal evidence means equal data**: tables with the same evidence are the same, unless texts that
are hashed for them collide, and the evidence is the same if the rows are given one by one. -/
theorem evidence_exact (table : String) (rows : List (List CanonicalValue)) :
    (∀ table' rows', Set.InjOn blake3 (hashed blake3 table rows ∪ hashed blake3 table' rows') →
      TableFits table rows → TableFits table' rows' →
      tableHash blake3 table rows = tableHash blake3 table' rows' → table = table' ∧ rows = rows') ∧
    let h := rows.foldl (TableHasher.update blake3) (.new table (.ofNat rows.length))
    h.count = h.expectedCount ∧ h.finish blake3 = tableHash blake3 table rows := by
  refine ⟨fun table' rows' hfree hfit hfit' h => tableHash_inj hfree hfit hfit' h, ?_⟩
  rw [foldl_update]
  simp [TableHasher.new, TableHasher.finish, tableHash, tableText]

/-- The length and the last bytes of a text. -/
def exampleHash (text : Bytes) : Hash :=
  .ofFn fun i => if i = 0 then .ofNat text.length else text.reverse.getD i 0

/-- Values of the same bytes and different types do not have the same evidence. -/
theorem evidence_exact_types :
    tableHash exampleHash "t" [[.text "1"]] ≠ tableHash exampleHash "t" [[.bool true]] := by
  intro h
  have hfits {value : CanonicalValue} (hv : value.toBytes.length < 2 ^ 64) :
      TableFits "t" [[value]] :=
    ⟨by decide +kernel, show 1 < 2 ^ 64 by decide, by simpa [RowFits] using hv⟩
  have hrows := ((evidence_exact "t" [[.text "1"]]).1 "t" [[.bool true]] ?_
    (hfits (by decide +kernel)) (hfits (by decide +kernel)) h).2
  · cases hrows
  · let texts := [tableText exampleHash "t" [[.text "1"]], tableText exampleHash "t" [[.bool true]],
      rowText [.text "1"], rowText [.bool true]]
    have htexts : ∀ x ∈ hashed exampleHash "t" [[.text "1"]] ∪ hashed exampleHash "t" [[.bool true]],
        x ∈ texts := by
      rintro x ((rfl | ⟨_, hrow, rfl⟩) | (rfl | ⟨_, hrow, rfl⟩)) <;> simp_all [texts]
    have hinj : ∀ x ∈ texts, ∀ y ∈ texts, exampleHash x = exampleHash y → x = y := by
      decide +kernel
    exact fun x hx y hy => hinj x (htexts x hx) y (htexts y hy)

end LmmApi.Migrate
