import LmmApi.Cache.ByteCache
import LmmApi.Lib.Recency
import Mathlib.Algebra.Order.BigOperators.Group.List

/-!
# The byte cache is coherent

What a cache is for is a list of entries by recency: `Op.spec` says what each method does to that list.
`Op.exec_eq` proves that the methods do so to the elements of the recency list, and that the map and
the byte count stay what the list says, as long as the byte count does not wrap.
-/

namespace LmmApi.Cache

open List Option Recency LinkedList
open Go (wrap wrap_of_lt)

variable {V : Type*}

/-! ## Entries by recency -/

/-- The bytes of some entries. -/
def bytesOf (l : List (Entry V)) : ℤ := (l.map Entry.bytes).sum

/-- The limits of a cache. -/
structure Limits (V : Type*) where
  maxEntries : ℤ
  maxBytes : ℤ
  weigh : String → V → ℤ

namespace Limits

/-- The weight of a value is out of range. -/
def Rejects (m : Limits V) (key : String) (value : V) : Prop :=
  m.weigh key value < 0 ∨ m.maxBytes < m.weigh key value
  deriving Decidable

/-- There are too many entries, or too heavy ones. -/
def large (m : Limits V) (l : List (Entry V)) : Bool :=
  m.maxEntries < l.length ∨ m.maxBytes < bytesOf l

/-- A new entry, in front of what fits of the others. -/
def put (m : Limits V) (key : String) (value : V) (ttl now : ℤ) (l : List (Entry V)) :
    List (Entry V) :=
  trim m.large (⟨key, value, m.weigh key value, if 0 < ttl then some (now + ttl) else none⟩ ::
    without Entry.key key l)

end Limits

/-- The entry of a key, unless it has expired. -/
def live (l : List (Entry V)) (key : String) (now : ℤ) : Option (Entry V) :=
  l.find? fun e => e.key = key ∧ ¬ e.Expired now

/-- **What the methods are for**: the entries by recency after a call. -/
def Op.spec (m : Limits V) : Op V → List (Entry V) → List (Entry V)
  | get key now, l => (live l key now).toList ++ without Entry.key key l
  | setWithTTL key value ttl now, l => if m.Rejects key value then l else m.put key value ttl now l
  | store key value now, l => if m.Rejects key value then l else m.put key value 0 now l
  | loadOrStore key value now, l =>
    match live l key now with
    | some e => e :: without Entry.key key l
    | none => if m.Rejects key value then without Entry.key key l else m.put key value 0 now l
  | compute key ttl update now later, l =>
    let (next, keep) := update ((live l key now).map Entry.value)
    if keep = false ∨ m.Rejects key next then without Entry.key key l else m.put key next ttl later l
  | delete key, l => without Entry.key key l
  | deleteMany ks, l => l.filter fun e => e.key ∉ ks
  | keys now, l => l.filter fun e => ¬ e.Expired now
  | purge, _ => []

theorem bytesOf_cons (e : Entry V) (l : List (Entry V)) : bytesOf (e :: l) = e.bytes + bytesOf l :=
  sum_cons

variable {l l' : List (Entry V)}

theorem bytesOf_perm (h : l.Perm l') : bytesOf l = bytesOf l' := (h.map Entry.bytes).sum_eq

theorem bytesOf_nonneg (h : ∀ e ∈ l, 0 ≤ e.bytes) : 0 ≤ bytesOf l := by
  refine sum_nonneg fun n hn => ?_
  obtain ⟨e, he, rfl⟩ := List.mem_map.1 hn
  exact h e he

theorem bytesOf_sublist (hsub : l'.Sublist l) (h : ∀ e ∈ l, 0 ≤ e.bytes) :
    bytesOf l' ≤ bytesOf l := by
  refine (hsub.map Entry.bytes).sum_le_sum fun n hn => ?_
  obtain ⟨e, he, rfl⟩ := List.mem_map.1 hn
  exact h e he

/-! ## The elements of a cache -/

namespace ByteCache

variable {c c' : ByteCache V} {key : String} {id : ℕ} {e : Entry V}

/-- The entries by recency. -/
def view (c : ByteCache V) : List (Entry V) := c.order.values

def limits (c : ByteCache V) : Limits V := ⟨c.maxEntries, c.maxBytes, c.weigh⟩

/-- The map leads to the elements of the list, and the byte count is theirs. -/
structure Linked (c : ByteCache V) : Prop where
  index : ∀ key id, c.entries.lookup key = some id ↔ ∃ e, (id, e) ∈ c.order.elements ∧ e.key = key
  used : c.usedBytes = bytesOf c.view
  nonneg : ∀ e ∈ c.view, 0 ≤ e.bytes

/-- A cache is what `spec` says about the entries of another one. -/
structure Becomes (c c' : ByteCache V) (l : List (Entry V)) : Prop where
  linked : Linked c'
  view : c'.view = l
  limits : c'.limits = c.limits

theorem Becomes.refl (h : Linked c) : Becomes c c c.view := ⟨h, rfl, rfl⟩

theorem mem_view (h : (id, e) ∈ c.order.elements) : e ∈ c.view := mem_values_iff.2 ⟨id, h⟩

theorem remove_eq (hm : (id, e) ∈ c.order.elements) : c.remove id = { c with
      entries := c.entries.erase e.key
      order := c.order.erase id
      usedBytes := wrap (c.usedBytes - e.bytes) } := by
  rw [remove, get?_eq_some_iff.2 hm]

section

variable (h : Linked c)
include h

theorem Linked.eq_of_key {x y : ℕ × Entry V} (hx : x ∈ c.order.elements)
    (hy : y ∈ c.order.elements) (hk : x.2.key = y.2.key) : x = y := by
  have hidx := (h.index x.2.key x.1).2 ⟨x.2, hx, rfl⟩
  have hidy := (h.index x.2.key y.1).2 ⟨y.2, hy, hk.symm⟩
  exact eq_of_mem hx hy (mem_unique hidx hidy)

theorem Linked.nodup_keys : (c.view.map Entry.key).Nodup := by
  rw [view, LinkedList.values, List.map_map]
  exact (List.Nodup.of_map _ c.order.nodup).map_on fun x hx y hy hk => h.eq_of_key hx hy hk

theorem Linked.find?_eq_some (hfd : c.find? key = some (id, e)) :
    (id, e) ∈ c.order.elements ∧ e.key = key := by
  obtain ⟨id', hid, hg⟩ := bind_eq_some_iff.1 hfd
  obtain ⟨e', he, heq⟩ := map_eq_some_iff.1 hg
  obtain ⟨rfl, rfl⟩ := Prod.mk.inj heq
  have hm := get?_eq_some_iff.1 he
  obtain ⟨e₁, hm₁, hk⟩ := (h.index key id').1 hid
  obtain rfl := (Prod.mk.inj (eq_of_mem hm hm₁ rfl)).2
  exact ⟨hm, hk⟩

theorem Linked.find?_eq_none (hfd : c.find? key = none) : ∀ e ∈ c.view, e.key ≠ key := by
  intro e he hk
  obtain ⟨id, hm⟩ := mem_values_iff.1 he
  have hid := (h.index key id).2 ⟨e, hm, hk⟩
  simp [find?, hid, get?_eq_some_iff.2 hm] at hfd

theorem Linked.mem_entries_iff : key ∈ c.entries ↔ ∃ e ∈ c.view, e.key = key := by
  rw [← AList.lookup_isSome, isSome_iff_exists]
  constructor
  · rintro ⟨id, hid⟩
    obtain ⟨e, he, hk⟩ := (h.index key id).1 hid
    exact ⟨e, mem_view he, hk⟩
  · rintro ⟨e, he, hk⟩
    obtain ⟨id, hm⟩ := mem_values_iff.1 he
    exact ⟨id, (h.index key id).2 ⟨e, hm, hk⟩⟩

theorem Linked.len_eq : c.len = c.view.length := by
  have hperm : c.entries.keys.Perm (c.view.map Entry.key) := by
    refine (perm_ext_iff_of_nodup c.entries.keys_nodup h.nodup_keys).2 fun key => ?_
    rw [← AList.mem_keys, h.mem_entries_iff, List.mem_map]
  have hlen := hperm.length_eq
  rw [length_map] at hlen
  rw [← hlen, len, AList.keys, List.keys, length_map]

theorem Linked.large_iff : c.Over ↔ c.limits.large c.view = true := by
  rw [Over, Limits.large, decide_eq_true_eq, h.len_eq, h.used]
  rfl

/-- The elements other than one are those of other keys. -/
theorem Linked.erase_elements (hm : (id, e) ∈ c.order.elements) :
    (c.order.erase id).elements = c.order.elements.filter (·.2.key ≠ e.key) := by
  refine filter_congr fun x hx => decide_eq_decide.2 ⟨?_, ?_⟩
  · exact fun hid hk => hid (by rw [h.eq_of_key hx hm hk])
  · exact fun hk hid => hk (by rw [eq_of_mem hx hm hid])

theorem Linked.view_erase (hm : (id, e) ∈ c.order.elements) :
    (c.order.erase id).values = without Entry.key e.key c.view := by
  rw [LinkedList.values, h.erase_elements hm, without, view, LinkedList.values, List.filter_map]
  rfl

/-- The map still leads to the elements after one of a key has come in front. -/
theorem Linked.index_front
    (hele : c'.order.elements = (id, e) :: c.order.elements.filter (·.2.key ≠ e.key))
    (hid : c'.entries.lookup e.key = some id)
    (hoth : ∀ key ≠ e.key, c'.entries.lookup key = c.entries.lookup key) (key : String) (id' : ℕ) :
    c'.entries.lookup key = some id' ↔ ∃ x, (id', x) ∈ c'.order.elements ∧ x.key = key := by
  simp only [hele, mem_cons, Prod.mk.injEq, mem_filter, decide_eq_true_eq]
  by_cases hk : key = e.key
  · rw [hk, hid, some.injEq]
    constructor
    · rintro rfl
      exact ⟨e, .inl ⟨rfl, rfl⟩, rfl⟩
    · rintro ⟨x, ⟨rfl, -⟩ | ⟨-, hx⟩, hx'⟩
      · rfl
      · exact absurd hx' hx
  · rw [hoth key hk, h.index key id']
    refine exists_congr fun x => and_congr_left ?_
    rintro rfl
    have hne : x ≠ e := fun hx => hk (hx ▸ rfl)
    simp [hk, hne]

theorem Linked.bytesOf_without (hm : e ∈ c.view) :
    bytesOf c.view = e.bytes + bytesOf (without Entry.key e.key c.view) := by
  rw [bytesOf_perm (perm_cons_without Entry.key h.nodup_keys hm), bytesOf_cons]

end

/-- `remove` drops the entry of a key. -/
theorem Linked.remove (h : Linked c) (hsma : bytesOf c.view < 2 ^ 63)
    (hm : (id, e) ∈ c.order.elements) :
    Becomes c (c.remove id) (without Entry.key e.key c.view) := by
  have hv : (c.remove id).view = without Entry.key e.key c.view := by
    rw [remove_eq hm]
    exact h.view_erase hm
  have hbyt := h.bytesOf_without (mem_view hm)
  have hnn (x : Entry V) (hx : x ∈ without Entry.key e.key c.view) : 0 ≤ x.bytes :=
    h.nonneg x ((mem_without _).1 hx).1
  refine ⟨⟨fun key id' => ?_, ?_, fun x hx => hnn x (hv ▸ hx)⟩, hv, ?_⟩
  · rw [remove_eq hm]
    simp only [h.erase_elements hm, mem_filter, decide_eq_true_eq]
    by_cases hk : key = e.key
    · rw [hk, AList.lookup_erase]
      simp [and_assoc]
    · rw [AList.lookup_erase_ne hk, h.index key id']
      refine exists_congr fun x => and_congr_left ?_
      rintro rfl
      exact (and_iff_left hk).symm
  · have hr := bytesOf_nonneg hnn
    have hpos := h.nonneg e (mem_view hm)
    rw [hv, remove_eq hm]
    change wrap (c.usedBytes - e.bytes) = _
    rw [h.used, hbyt, add_sub_cancel_left]
    exact wrap_of_lt hr (by omega)
  · rw [remove_eq hm]
    rfl

/-- `store` up to its loop puts the new entry in front. -/
theorem Linked.place (h : Linked c) (key : String) (value : V) {weight : ℤ} (ttl now : ℤ)
    (hwei : 0 ≤ weight) (hsma : bytesOf c.view + weight < 2 ^ 63) :
    Becomes c (c.place key value weight ttl now)
      (⟨key, value, weight, if 0 < ttl then some (now + ttl) else none⟩ ::
        without Entry.key key c.view) := by
  have hnn (x : Entry V) (hx : x ∈ without Entry.key key c.view) : 0 ≤ x.bytes :=
    h.nonneg x ((mem_without _).1 hx).1
  have hr := bytesOf_nonneg hnn
  have hcons {c' : ByteCache V} {new : Entry V} (hnew : new.bytes = weight)
      (hv : c'.view = new :: without Entry.key key c.view) : ∀ x ∈ c'.view, 0 ≤ x.bytes := by
    intro x hx
    rw [hv] at hx
    obtain rfl | hx := mem_cons.1 hx
    · exact hnew ▸ hwei
    · exact hnn x hx
  unfold ByteCache.place
  dsimp only
  generalize (if 0 < ttl then some (now + ttl) else none) = expiresAt
  split
  case h_1 id e hfd =>
    obtain ⟨hm, rfl⟩ := h.find?_eq_some hfd
    have hbyt := h.bytesOf_without (mem_view hm)
    have hpos := h.nonneg e (mem_view hm)
    -- the element keeps its place in the map, with another entry of the same key
    have hele := moveToFront_eq_cons (mem_update (fun e : Entry V =>
      { e with value, bytes := weight, expiresAt }) hm)
    rw [update_erase] at hele
    have hv := congrArg (List.map Prod.snd) hele
    rw [map_cons] at hv
    have hv' := hv.trans (congrArg _ (h.view_erase hm))
    refine ⟨⟨?_, ?_, hcons rfl hv'⟩, hv', rfl⟩
    · rw [h.erase_elements hm] at hele
      exact h.index_front hele ((h.index _ _).2 ⟨e, hm, rfl⟩) fun _ _ => rfl
    · change wrap (wrap (c.usedBytes - e.bytes) + weight) = bytesOf (List.map Prod.snd _)
      rw [hv', bytesOf_cons, h.used, hbyt, add_sub_cancel_left, wrap_of_lt hr (by omega), add_comm]
      exact wrap_of_lt (by omega) (by omega)
  case h_2 hfd =>
    have hn := h.find?_eq_none hfd
    have hself : without Entry.key key c.view = c.view := without_eq_self _ hn
    rw [hself] at hcons ⊢
    refine ⟨⟨?_, ?_, hcons rfl rfl⟩, rfl, rfl⟩
    · refine h.index_front (congrArg (_ :: ·) (filter_eq_self.2 fun x hx => ?_).symm)
        (AList.lookup_insert _) fun _ hk => AList.lookup_insert_ne hk
      exact decide_eq_true (hn x.2 (mem_view hx))
    · change wrap (c.usedBytes + weight) = bytesOf (_ :: c.view)
      rw [bytesOf_cons, h.used, add_comm]
      exact wrap_of_lt (by rw [hself] at hr; omega) (by omega)

theorem Becomes.small (h : Linked c) (hsma : bytesOf c.view < 2 ^ 63)
    (hbec : Becomes c c' (without Entry.key key c.view)) : bytesOf c'.view < 2 ^ 63 := by
  rw [hbec.view]
  exact (bytesOf_sublist (without_sublist _ _ _) h.nonneg).trans_lt hsma

/-- **The loop of `store` ends**, and trims the list. -/
theorem Linked.evict (h : Linked c) (hsma : bytesOf c.view < 2 ^ 63)
    (hlim : c.limits.large [] = false) {fuel : ℕ} (hfuel : c.order.length = fuel) :
    ∃ c', ByteCache.evict fuel c = some c' ∧ Becomes c c' (trim c.limits.large c.view) := by
  induction fuel generalizing c with
  | zero =>
    have hv : c.view = [] := by rw [← length_eq_zero_iff, view, length_values, hfuel]
    have hover : ¬ c.Over := by
      rw [h.large_iff, hv, hlim]
      exact Bool.false_ne_true
    refine ⟨c, by rw [ByteCache.evict, if_neg hover], h, ?_, rfl⟩
    rw [hv, trim_of_not_large hlim]
  | succ fuel ih =>
    by_cases hover : c.Over
    · cases hb : c.order.back? with
      | none =>
        rw [LinkedList.length, back?_eq_none hb] at hfuel
        cases hfuel
      | some id =>
        obtain ⟨e, hele⟩ := back?_eq_some hb
        have hm : (id, e) ∈ c.order.elements := by
          rw [hele]
          exact mem_append_right _ (mem_singleton.2 rfl)
        have hrem := h.remove hsma hm
        have hspl : c.view = (c.remove id).view ++ [e] := by
          rw [hrem.view, ← h.view_erase hm, view, LinkedList.values, LinkedList.values]
          conv_lhs => rw [hele]
          rw [map_append]
          rfl
        have hlen : (c.remove id).order.length = fuel := by
          have hcnt := congrArg List.length hspl
          rw [length_append, length_singleton, view, view, length_values,
            length_values, hfuel] at hcnt
          omega
        obtain ⟨c', hevi, hbec⟩ := ih hrem.linked (hrem.small h hsma) (hrem.limits ▸ hlim) hlen
        refine ⟨c', ?_, hbec.linked, ?_, hbec.limits.trans hrem.limits⟩
        · rw [ByteCache.evict, if_pos hover, hb, bind_some, hevi]
        · rw [hbec.view, hrem.limits, hspl]
          exact (trim_append_singleton (hspl ▸ h.large_iff.1 hover)).symm
    · refine ⟨c, by rw [ByteCache.evict, if_neg hover], h, ?_, rfl⟩
      rw [trim_of_not_large (by simpa using mt h.large_iff.2 hover)]

/-- A cache between two calls: the limits are sensible, and the entries are within them. -/
structure Bounded (c : ByteCache V) : Prop where
  entries_pos : 1 ≤ c.maxEntries
  bytes_pos : 1 ≤ c.maxBytes
  bytes_lt : c.maxBytes < 2 ^ 62
  fits : c.limits.large c.view = false

theorem Bounded.not_large_nil (h : Bounded c) : c.limits.large [] = false := by
  have hent := h.entries_pos
  have hbyt := h.bytes_pos
  simp only [Limits.large, limits, bytesOf, map_nil, sum_nil, length_nil, decide_eq_false_iff_not]
  omega

theorem Bounded.le (h : Bounded c) : (c.view.length : ℤ) ≤ c.maxEntries ∧ bytesOf c.view ≤ c.maxBytes := by
  have hft := h.fits
  rw [Limits.large, decide_eq_false_iff_not, not_or, not_lt, not_lt] at hft
  exact hft

theorem Bounded.small (h : Bounded c) : bytesOf c.view < 2 ^ 63 := by
  have hle := h.le.2
  have hlt := h.bytes_lt
  omega

variable {value : V} {now : ℤ} {l l' : List (Entry V)}

/-- `store` puts the new entry in front and drops what does not fit. -/
theorem Linked.store (h : Linked c) (hbd : Bounded c) {ttl : ℤ} (hwei : ¬ c.Rejects key value) :
    ∃ c', c.store key value (c.weigh key value) ttl now = some c' ∧
      Becomes c c' (c.limits.put key value ttl now c.view) := by
  have hlt := hbd.bytes_lt
  have hud := hbd.le.2
  have hle : 0 ≤ c.weigh key value ∧ c.weigh key value ≤ c.maxBytes := by simpa [Rejects] using hwei
  obtain ⟨hlin, hv, hs⟩ := h.place key value ttl now hle.1 (by omega)
  have hsma : bytesOf (c.place key value (c.weigh key value) ttl now).view < 2 ^ 63 := by
    have hr : bytesOf (without Entry.key key c.view) ≤ bytesOf c.view :=
      bytesOf_sublist (without_sublist _ _ _) h.nonneg
    rw [hv, bytesOf_cons]
    dsimp only
    omega
  obtain ⟨c', hevi, hlin', hv', hs'⟩ := hlin.evict hsma (hs ▸ hbd.not_large_nil) rfl
  refine ⟨c', hevi, hlin', ?_, hs'.trans hs⟩
  rw [hv', hs, hv]
  rfl

/-! ## The methods -/

/-- An element that is used moves to the front. -/
theorem Linked.touch (h : Linked c) (hm : (id, e) ∈ c.order.elements) :
    Becomes c { c with order := c.order.moveToFront id } (e :: without Entry.key e.key c.view) := by
  have hv : (c.order.moveToFront id).values = e :: without Entry.key e.key c.view := by
    rw [LinkedList.values, moveToFront_eq_cons hm, map_cons]
    exact congrArg _ (h.view_erase hm)
  have hperm := perm_cons_without Entry.key h.nodup_keys (mem_view hm)
  refine ⟨⟨?_, ?_, fun x hx => h.nonneg x ?_⟩, hv, rfl⟩
  · have hele := moveToFront_eq_cons hm
    rw [h.erase_elements hm] at hele
    exact h.index_front hele ((h.index _ _).2 ⟨e, hm, rfl⟩) fun _ _ => rfl
  · rw [h.used, bytesOf_perm hperm, ← hv]
    rfl
  · exact hperm.mem_iff.2 (hv ▸ hx)

theorem Linked.delete (h : Linked c) (hsma : bytesOf c.view < 2 ^ 63) (key : String) :
    Becomes c (c.delete key) (without Entry.key key c.view) := by
  unfold ByteCache.delete
  split
  case h_1 hfd =>
    rw [without_eq_self _ (h.find?_eq_none hfd)]
    exact .refl h
  case h_2 _ _ hfd =>
    obtain ⟨hm, rfl⟩ := h.find?_eq_some hfd
    exact h.remove hsma hm

/-- The entry of a key is live unless it has expired. -/
theorem Linked.live_eq (h : Linked c) (hm : e ∈ c.view) (now : ℤ) :
    live c.view e.key now = if e.Expired now then none else some e := by
  have huni {x : Entry V} (hx : live c.view e.key now = some x) : x = e ∧ ¬ x.Expired now := by
    have hp := find?_some hx
    rw [decide_eq_true_eq] at hp
    exact ⟨inj_on_of_nodup_map h.nodup_keys (mem_of_find?_eq_some hx) hm hp.1, hp.2⟩
  cases hlv : live c.view e.key now with
  | none =>
    have hexp := List.find?_eq_none.1 hlv e hm
    simp only [decide_eq_true_eq, true_and, not_not] at hexp
    rw [if_pos hexp]
  | some =>
    obtain ⟨rfl, hfr⟩ := huni hlv
    rw [if_neg hfr]

theorem live_eq_none (h : ∀ e ∈ c.view, e.key ≠ key) : live c.view key now = none :=
  find?_eq_none.2 fun e he hp => h e he (of_decide_eq_true hp).1

theorem Linked.get (h : Linked c) (hsma : bytesOf c.view < 2 ^ 63) (key : String) (now : ℤ) :
    (c.get key now).1 = (live c.view key now).map Entry.value ∧
      Becomes c (c.get key now).2 ((live c.view key now).toList ++ without Entry.key key c.view) := by
  unfold ByteCache.get
  split
  case h_1 hfd =>
    have hn := h.find?_eq_none hfd
    rw [live_eq_none hn, without_eq_self _ hn]
    exact ⟨rfl, .refl h⟩
  case h_2 _ _ hfd =>
    obtain ⟨hm, rfl⟩ := h.find?_eq_some hfd
    rw [h.live_eq (mem_view hm)]
    split
    · exact ⟨rfl, h.remove hsma hm⟩
    · exact ⟨rfl, h.touch hm⟩

/-- The cache that the callback of `Compute` sees. -/
theorem Linked.current (h : Linked c) (hsma : bytesOf c.view < 2 ^ 63) (key : String) (now : ℤ) :
    (c.current key now).1 = (live c.view key now).map Entry.value ∧
      ∃ l, Becomes c (c.current key now).2 l ∧ l.Sublist c.view ∧
        without Entry.key key l = without Entry.key key c.view := by
  unfold ByteCache.current
  split
  case h_1 hfd =>
    rw [live_eq_none (h.find?_eq_none hfd)]
    exact ⟨rfl, _, .refl h, List.Sublist.refl _, rfl⟩
  case h_2 _ _ hfd =>
    obtain ⟨hm, rfl⟩ := h.find?_eq_some hfd
    rw [h.live_eq (mem_view hm)]
    split
    · refine ⟨rfl, _, h.remove hsma hm, without_sublist _ _ _, ?_⟩
      simp [without]
    · exact ⟨rfl, _, .refl h, List.Sublist.refl _, rfl⟩

theorem not_large_sublist {m : Limits V} (h : m.large l = false)
    (hsub : l'.Sublist l) (hnn : ∀ e ∈ l, 0 ≤ e.bytes) : m.large l' = false := by
  have hlen := hsub.length_le
  have hbyt := bytesOf_sublist hsub hnn
  rw [Limits.large, decide_eq_false_iff_not] at h ⊢
  omega

theorem Bounded.of_not_large (h : Bounded c) (hlim : c'.limits = c.limits)
    (hlarge : c.limits.large c'.view = false) : Bounded c' := by
  obtain ⟨hent, hbyt, hlt, -⟩ := h
  have hmaxE : c'.maxEntries = c.maxEntries := congrArg Limits.maxEntries hlim
  have hmax : c'.maxBytes = c.maxBytes := congrArg Limits.maxBytes hlim
  exact ⟨hmaxE ▸ hent, hmax ▸ hbyt, hmax ▸ hlt, hlim ▸ hlarge⟩

theorem Bounded.of_sublist (h : Bounded c) (hlin : Linked c)
    (hbec : Becomes c c' l) (hsub : l.Sublist c.view) : Bounded c' := by
  refine h.of_not_large hbec.limits ?_
  rw [hbec.view]
  exact not_large_sublist h.fits hsub hlin.nonneg

theorem Becomes.trans {c'' : ByteCache V} (h : Becomes c c' l)
    (h' : Becomes c' c'' l') : Becomes c c'' l' :=
  ⟨h'.linked, h'.view, h'.limits.trans h.limits⟩

theorem rejects_congr (h : c'.limits = c.limits) :
    c'.Rejects key value ↔ c.limits.Rejects key value := by
  change c'.limits.Rejects key value ↔ _
  rw [h]

/-- A value that is not rejected is put in front, after entries of its key are gone. -/
theorem Becomes.store (h : Becomes c c' l) (hbd : Bounded c')
    (hwit : without Entry.key key l = without Entry.key key c.view) (ttl now : ℤ)
    (hwei : ¬ c'.Rejects key value) :
    ∃ c'', c'.store key value (c'.weigh key value) ttl now = some c'' ∧
      Becomes c c'' (c.limits.put key value ttl now c.view) := by
  obtain ⟨c'', hsto, hlin, hv, hlim⟩ := h.linked.store hbd hwei
  refine ⟨c'', hsto, hlin, ?_, hlim.trans h.limits⟩
  rw [hv, Limits.put, Limits.put, h.limits, h.view, hwit]

theorem Linked.setWithTTL (h : Linked c) (hbd : Bounded c) (key : String) (value : V)
    (ttl now : ℤ) : ∃ c', c.setWithTTL key value ttl now = some c' ∧
      Becomes c c' (if c.limits.Rejects key value then c.view
        else c.limits.put key value ttl now c.view) := by
  unfold ByteCache.setWithTTL
  by_cases hrej : c.Rejects key value
  · rw [if_pos hrej, if_pos ((rejects_congr rfl).1 hrej)]
    exact ⟨c, rfl, .refl h⟩
  · rw [if_neg hrej, if_neg (mt (rejects_congr rfl).2 hrej)]
    exact (Becomes.refl h).store hbd rfl ttl now hrej

theorem Becomes.storeAbsent (h : Becomes c c' l) (hbd : Bounded c')
    (hl : l = without Entry.key key c.view) (value : V) (now : ℤ) :
    ∃ c'', (c'.storeAbsent key value now).map Prod.snd = some c'' ∧
      Becomes c c'' (if c.limits.Rejects key value then without Entry.key key c.view
        else c.limits.put key value 0 now c.view) := by
  unfold ByteCache.storeAbsent
  by_cases hrej : c'.Rejects key value
  · rw [if_pos hrej, if_pos ((rejects_congr h.limits).1 hrej)]
    exact ⟨c', rfl, hl ▸ h⟩
  · rw [if_neg hrej, if_neg (mt (rejects_congr h.limits).2 hrej)]
    obtain ⟨c'', hsto, hbec⟩ := h.store hbd (by rw [hl]; simp [without]) 0 now hrej
    exact ⟨c'', by rw [hsto]; rfl, hbec⟩

theorem Linked.loadOrStore (h : Linked c) (hbd : Bounded c) (key : String) (value : V) (now : ℤ) :
    ∃ c', (c.loadOrStore key value now).map Prod.snd = some c' ∧
      Becomes c c' ((Op.loadOrStore key value now).spec c.limits c.view) := by
  unfold ByteCache.loadOrStore
  rw [Op.spec]
  split
  case h_1 hfd =>
    have hn := h.find?_eq_none hfd
    rw [live_eq_none hn]
    exact (Becomes.refl h).storeAbsent hbd (without_eq_self _ hn).symm value now
  case h_2 _ _ hfd =>
    obtain ⟨hm, rfl⟩ := h.find?_eq_some hfd
    rw [h.live_eq (mem_view hm)]
    split
    · have hbec := h.remove hbd.small hm
      exact hbec.storeAbsent (hbd.of_sublist h hbec (without_sublist _ _ _)) rfl value now
    · exact ⟨_, rfl, h.touch hm⟩

theorem Linked.compute (h : Linked c) (hbd : Bounded c) (key : String) (ttl : ℤ)
    (update : Option V → V × Bool) (now later : ℤ) :
    ∃ c', (c.compute key ttl update now later).map Prod.snd = some c' ∧
      Becomes c c' ((Op.compute key ttl update now later).spec c.limits c.view) := by
  obtain ⟨hf, l, hbec, hsub, hwit⟩ := h.current hbd.small key now
  have hbd' := hbd.of_sublist h hbec hsub
  have hdel : Becomes c ((c.current key now).2.delete key) (without Entry.key key c.view) := by
    have hn := hbec.trans (hbec.linked.delete hbd'.small key)
    rwa [hbec.view, hwit] at hn
  simp only [ByteCache.compute, Op.spec, hf]
  generalize update ((live c.view key now).map Entry.value) = out
  obtain ⟨next, keep⟩ := out
  dsimp only
  by_cases hkp : keep = false
  · rw [if_pos hkp, if_pos (.inl hkp)]
    exact ⟨_, rfl, hdel⟩
  · rw [if_neg hkp]
    by_cases hrej : (c.current key now).2.Rejects key next
    · rw [if_pos hrej, if_pos (.inr ((rejects_congr hbec.limits).1 hrej))]
      exact ⟨_, rfl, hdel⟩
    · rw [if_neg hrej, if_neg (not_or.2 ⟨hkp, mt (rejects_congr hbec.limits).2 hrej⟩)]
      obtain ⟨c', hsto, hn⟩ := hbec.store hbd' hwit ttl later hrej
      exact ⟨c', by rw [hsto]; rfl, hn⟩

/-- A key is removed, and then other ones. -/
theorem Becomes.filter {c'' : ByteCache V} {ks : List String}
    (h : Becomes c c' (without Entry.key key c.view))
    (h' : Becomes c' c'' (c'.view.filter fun e => e.key ∉ ks)) :
    Becomes c c'' (c.view.filter fun e => e.key ∉ key :: ks) := by
  rw [h.view, without, List.filter_filter] at h'
  refine ⟨h'.linked, h'.view.trans (filter_congr fun e _ => ?_), h'.limits.trans h.limits⟩
  simp [Bool.and_comm]

/-- The loop of `DeleteMany`. -/
theorem Linked.deleteMany_loop (h : Linked c) (hsma : bytesOf c.view < 2 ^ 63) (ks : List String)
    (deleted : AList fun _ : String => Bool) :
    Becomes c (ks.foldl (fun (deleted, c) key =>
      (deleted.insert key (c.entries.lookup key).isSome, c.delete key)) (deleted, c)).2
      (c.view.filter fun e => e.key ∉ ks) := by
  induction ks generalizing c deleted with
  | nil =>
    rw [filter_eq_self.2 (by simp)]
    exact .refl h
  | cons key ks ih =>
    have hdel := h.delete hsma key
    exact hdel.filter (ih hdel.linked (hdel.small h hsma) _)

/-- The loop of `Keys` over some of the elements. -/
theorem Linked.keys_loop (h : Linked c) (hsma : bytesOf c.view < 2 ^ 63) (now : ℤ)
    (todo : List (ℕ × Entry V)) (hnd : (todo.map Prod.fst).Nodup)
    (htodo : ∀ x ∈ todo, x ∈ c.order.elements) (ks : List String) :
    Becomes c (todo.foldl (fun (keys, c) (id, e) =>
      if e.Expired now then (keys, c.remove id) else (keys ++ [e.key], c)) (ks, c)).2
      (c.view.filter fun e => e.key ∉ (todo.filter (·.2.Expired now)).map (·.2.key)) := by
  induction todo generalizing c ks with
  | nil =>
    rw [filter_eq_self.2 (by simp)]
    exact .refl h
  | cons x todo ih =>
    obtain ⟨hm, htodo⟩ := forall_mem_cons.1 htodo
    rw [map_cons, nodup_cons] at hnd
    rw [foldl_cons]
    dsimp only
    by_cases hexp : x.2.Expired now
    · have hrem := h.remove hsma hm
      rw [if_pos hexp, filter_cons_of_pos (by simpa using hexp)]
      refine hrem.filter (ih hrem.linked (hrem.small h hsma) hnd.2 (fun y hy => ?_) ks)
      rw [remove_eq hm]
      exact mem_erase.2 ⟨htodo y hy, fun hid => hnd.1 (List.mem_map.2 ⟨y, hy, hid⟩)⟩
    · rw [if_neg hexp, filter_cons_of_neg (by simpa using hexp)]
      exact ih h hsma hnd.2 htodo _

theorem Linked.keys (h : Linked c) (hsma : bytesOf c.view < 2 ^ 63) (now : ℤ) :
    Becomes c (c.keys now).2 (c.view.filter fun e => ¬ e.Expired now) := by
  have hall := h.keys_loop hsma now c.order.elements c.order.nodup (fun _ hx => hx) []
  refine ⟨hall.linked, hall.view.trans (filter_congr fun e he => ?_), hall.limits⟩
  obtain ⟨id, hm⟩ := mem_values_iff.1 he
  refine decide_eq_decide.2 (not_congr ⟨fun hk => ?_, fun hexp => ?_⟩)
  · obtain ⟨x, hx, hk⟩ := List.mem_map.1 hk
    obtain ⟨hx, hexp⟩ := mem_filter.1 hx
    obtain rfl := h.eq_of_key hx hm hk
    exact of_decide_eq_true hexp
  · exact List.mem_map.2 ⟨(id, e), mem_filter.2 ⟨hm, decide_eq_true hexp⟩, rfl⟩

theorem linked_empty {m : ByteCache V} (hent : m.entries = ∅) (hord : m.order = .empty)
    (hud : m.usedBytes = 0) : Linked m := by
  have hv : m.view = [] := by
    rw [view, hord]
    rfl
  refine ⟨fun key id => ?_, ?_, ?_⟩
  · rw [hent, hord]
    simp [empty]
  · rw [hud, hv]
    rfl
  · simp [hv]

end ByteCache

open ByteCache

variable {c c' : ByteCache V}

/-- **The methods do what they are for**: every call returns, and the list by recency is what `spec`
says. -/
theorem Op.exec_eq (h : Linked c) (hbd : Bounded c) (op : Op V) :
    ∃ c', op.exec c = some c' ∧ Becomes c c' (op.spec c.limits c.view) := by
  cases op with
  | get key now => exact ⟨_, rfl, (h.get hbd.small key now).2⟩
  | setWithTTL key value ttl now => exact h.setWithTTL hbd key value ttl now
  | store key value now => exact h.setWithTTL hbd key value 0 now
  | loadOrStore key value now => exact h.loadOrStore hbd key value now
  | compute key ttl update now later => exact h.compute hbd key ttl update now later
  | delete key => exact ⟨_, rfl, h.delete hbd.small key⟩
  | deleteMany ks => exact ⟨_, rfl, h.deleteMany_loop hbd.small ks ∅⟩
  | keys now => exact ⟨_, rfl, h.keys hbd.small now⟩
  | purge => exact ⟨_, rfl, linked_empty rfl rfl rfl, rfl, rfl⟩

end LmmApi.Cache
