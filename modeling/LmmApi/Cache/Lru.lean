import LmmApi.Cache.Coherent
import LmmApi.Lib.Attribution

/-!
# The byte cache drops what was used least recently

Along a run of calls a `Trace` records when each key was used last and which value was passed for it
last. `Op.drops_or_fronts` says what a call can do to the entries by recency: it drops some, or it
puts one in front and trims the list. From this follow the order of the list, the evictions and the
values. The cache never keeps another value for a key than the last one, provided that a value that is
out of range is set for a key without an entry: `SetWithTTL` leaves the old entry in place.
-/

namespace LmmApi.Cache

open Attribution Recency ByteCache Function List Option

variable {V : Type*} {c c' : ByteCache V}

/-! ## Uses and values -/

variable (m : Limits V) (l : List (Entry V))

/-- The key that a call uses: it finds it, or it stores a value for it. -/
def Op.uses : Op V → Option String
  | get key now => (live l key now).map fun _ => key
  | setWithTTL key value _ _ | store key value _ => if m.Rejects key value then none else some key
  | loadOrStore key value now =>
    if live l key now = none ∧ m.Rejects key value then none else some key
  | compute key _ update now _ =>
    let (next, keep) := update ((live l key now).map Entry.value)
    if keep = false ∨ m.Rejects key next then none else some key
  | delete _ | deleteMany _ | keys _ | purge => none

/-- The value that a call passes for a key, to be stored there. A value that `LoadOrStore` finds, or that
the callback of `Compute` does not keep, is not passed on. -/
def Op.passes : Op V → Option (String × V)
  | setWithTTL key value _ _ | store key value _ => some (key, value)
  | loadOrStore key value now => if live l key now = none then some (key, value) else none
  | compute key _ update now _ =>
    let (next, keep) := update ((live l key now).map Entry.value)
    if keep then some (key, next) else none
  | get _ _ | delete _ | deleteMany _ | keys _ | purge => none

/-- A value out of range is set for a key without an entry. -/
def Op.Heeds : Op V → Prop
  | setWithTTL key value _ _ | store key value _ => m.Rejects key value → ∀ e ∈ l, e.key ≠ key
  | _ => True

theorem live_eq_some {l : List (Entry V)} {key : String} {now : ℤ} {e : Entry V}
    (h : live l key now = some e) : e ∈ l ∧ e.key = key := by
  have hp := find?_some h
  rw [decide_eq_true_eq] at hp
  exact ⟨mem_of_find?_eq_some h, hp.1⟩

theorem Limits.large_perm {m : Limits V} {l l' : List (Entry V)} (h : l.Perm l') :
    m.large l = m.large l' := by
  rw [Limits.large, Limits.large, h.length_eq, bytesOf_perm h]

/-- A call that drops entries, and leaves none for a key that it passes a value for. -/
structure Op.Drops (op : Op V) : Prop where
  uses : op.uses m l = none
  sublist : (op.spec m l).Sublist l
  passes : op.Heeds m l → ∀ kv ∈ op.passes l, ∀ e ∈ op.spec m l, e.key ≠ kv.1

/-- A call that puts an entry in front: one that it found, or one with the value that it passes. -/
structure Op.Fronts (op : Op V) (e : Entry V) : Prop where
  uses : op.uses m l = some e.key
  spec : op.spec m l = trim m.large (e :: without Entry.key e.key l)
  passes : e ∈ l ∧ op.passes l = none ∨ op.passes l = some (e.key, e.value)
  fits : m.large [e] = false

instance (m : Limits V) (l : List (Entry V)) (op : Op V) : Decidable (op.Heeds m l) := by
  unfold Op.Heeds
  split <;> infer_instance

section Effect

variable {m : Limits V} {l : List (Entry V)}

theorem Op.Fronts.of_live (hnd : (l.map Entry.key).Nodup) (hft : m.large l = false)
    (hnn : ∀ e ∈ l, 0 ≤ e.bytes) {op : Op V} {key : String} {now : ℤ} {e : Entry V}
    (hlv : live l key now = some e) (hus : op.uses m l = some key)
    (hspec : op.spec m l = e :: without Entry.key key l) (hpas : op.passes l = none) :
    op.Fronts m l e := by
  obtain ⟨hm, rfl⟩ := live_eq_some hlv
  have hperm := perm_cons_without Entry.key hnd hm
  refine ⟨hus, ?_, .inl ⟨hm, hpas⟩, ?_⟩
  · rw [hspec, trim_of_not_large (by rw [← Limits.large_perm hperm]; exact hft)]
  · exact not_large_sublist hft (singleton_sublist.2 hm) hnn

theorem Op.Fronts.of_put (hent : 1 ≤ m.maxEntries) {op : Op V} {key : String} {value : V}
    (ttl now : ℤ) (hwei : ¬ m.Rejects key value) (hus : op.uses m l = some key)
    (hspec : op.spec m l = m.put key value ttl now l) (hpas : op.passes l = some (key, value)) :
    ∃ e, op.Fronts m l e := by
  refine ⟨_, hus, hspec, .inr hpas, ?_⟩
  rw [Limits.Rejects] at hwei
  simp only [Limits.large, bytesOf, map_cons, map_nil, sum_cons, sum_nil, length_cons,
    length_nil, decide_eq_false_iff_not]
  omega

/-- **What a call can do** to the entries by recency. -/
theorem Op.drops_or_fronts (hnd : (l.map Entry.key).Nodup) (hft : m.large l = false)
    (hnn : ∀ e ∈ l, 0 ≤ e.bytes) (hent : 1 ≤ m.maxEntries) (op : Op V) :
    op.Drops m l ∨ ∃ e, op.Fronts m l e := by
  have hset {op : Op V} {key : String} {value : V} (ttl now : ℤ)
      (hus : op.uses m l = if m.Rejects key value then none else some key)
      (hspec : op.spec m l = if m.Rejects key value then l else m.put key value ttl now l)
      (hpas : op.passes l = some (key, value))
      (hhee : op.Heeds m l → m.Rejects key value → ∀ e ∈ l, e.key ≠ key) :
      op.Drops m l ∨ ∃ e, op.Fronts m l e := by
    by_cases hrej : m.Rejects key value
    · rw [if_pos hrej] at hus hspec
      refine .inl ⟨hus, by rw [hspec], fun hheed kv hkv => ?_⟩
      obtain rfl := mem_unique hpas hkv
      rw [hspec]
      exact hhee hheed hrej
    · rw [if_neg hrej] at hus hspec
      exact .inr (Fronts.of_put hent ttl now hrej hus hspec hpas)
  have hwit {op : Op V} (key : String) (hus : op.uses m l = none)
      (hspec : op.spec m l = without Entry.key key l) (hpas : ∀ kv ∈ op.passes l, kv.1 = key) :
      op.Drops m l := by
    refine ⟨hus, by rw [hspec]; exact without_sublist _ _ _, fun _ kv hkv e he => ?_⟩
    rw [hspec] at he
    rw [hpas kv hkv]
    exact ((mem_without _).1 he).2
  cases op with
  | get key now =>
    cases hlv : live l key now with
    | none =>
      exact .inl (hwit key (by simp [uses, hlv]) (by simp [spec, hlv]) (by rintro _ ⟨⟩))
    | some e =>
      exact .inr ⟨e, .of_live hnd hft hnn hlv (by simp [uses, hlv]) (by simp [spec, hlv]) rfl⟩
  | setWithTTL _ _ ttl now => exact hset ttl now rfl rfl rfl id
  | store _ _ now => exact hset 0 now rfl rfl rfl id
  | loadOrStore key value now =>
    cases hlv : live l key now with
    | none =>
      by_cases hrej : m.Rejects key value
      · refine .inl (hwit key ?_ ?_ ?_) <;> simp [uses, spec, passes, hlv, hrej]
      · refine .inr (Fronts.of_put hent 0 now hrej ?_ ?_ ?_) <;>
          simp [uses, spec, passes, hlv, hrej]
    | some e =>
      refine .inr ⟨e, .of_live hnd hft hnn hlv ?_ ?_ ?_⟩ <;> simp [uses, spec, passes, hlv]
  | compute key ttl update now later =>
    generalize hupd : update ((live l key now).map Entry.value) = out
    obtain ⟨next, keep⟩ := out
    by_cases hdrop : keep = false ∨ m.Rejects key next
    · refine .inl (hwit key ?_ ?_ ?_) <;> simp +contextual [uses, spec, passes, hupd, hdrop]
    · obtain ⟨hkp, hrej⟩ := not_or.1 hdrop
      refine .inr (Fronts.of_put hent ttl later hrej ?_ ?_ ?_) <;>
        simp [uses, spec, passes, hupd, hkp, hrej]
  | delete key => exact .inl (hwit key rfl rfl (by rintro _ ⟨⟩))
  | deleteMany | keys => exact .inl ⟨rfl, filter_sublist, by rintro _ _ ⟨⟩⟩
  | purge => exact .inl ⟨rfl, nil_sublist _, by rintro _ _ ⟨⟩⟩

end Effect

/-! ## Runs -/

/-- What has happened in a run: the number of the next call, the number of the last call that used a
key, and the last value that was passed for it. -/
structure Trace (V : Type*) where
  clock : ℕ
  used : String → ℕ
  passed : String → Option V

def Trace.start : Trace V := ⟨1, fun _ => 0, fun _ => none⟩

/-- The trace after a call on a cache. -/
def Trace.after (t : Trace V) (op : Op V) (c : ByteCache V) : Trace V where
  clock := t.clock + 1
  used := match op.uses c.limits c.view with
    | some key => Function.update t.used key t.clock
    | none => t.used
  passed := match op.passes c.view with
    | some (key, value) => Function.update t.passed key (some value)
    | none => t.passed

/-- A call in a run. There is no state after a call that does not return. -/
def Op.call (op : Op V) (s : Option (ByteCache V × Trace V)) : Option (ByteCache V × Trace V) :=
  s.bind fun (c, t) => (op.exec c).map (·, t.after op c)

/-- The call does not set a value out of range for a key with an entry. -/
def Op.Careful (op : Op V) (s : Option (ByteCache V × Trace V)) : Prop :=
  ∀ x ∈ s, op.Heeds x.1.limits x.1.view
  deriving Decidable

/-- The entries are ordered by the last use of their keys. -/
structure Stamped (c : ByteCache V) (t : Trace V) : Prop where
  linked : Linked c
  bounded : Bounded c
  recent : Recent Entry.key t.used c.view
  used_lt : ∀ key, t.used key < t.clock

/-- The entries have the values that were passed last. -/
def Valued (c : ByteCache V) (t : Trace V) : Prop := ∀ e ∈ c.view, t.passed e.key = some e.value

variable {t : Trace V} {op : Op V}

theorem Stamped.drops_or_fronts (h : Stamped c t) (op : Op V) :
    op.Drops c.limits c.view ∨ ∃ e, op.Fronts c.limits c.view e :=
  op.drops_or_fronts h.linked.nodup_keys h.bounded.fits h.linked.nonneg h.bounded.entries_pos

theorem Trace.after_used_lt (h : ∀ key, t.used key < t.clock) (op : Op V) (c : ByteCache V)
    (key : String) : (t.after op c).used key < (t.after op c).clock := by
  have hlt := h key
  unfold Trace.after
  cases op.uses c.limits c.view with
  | none =>
    dsimp only
    omega
  | some k =>
    dsimp only
    rw [update_apply]
    split <;> omega

/-- The list before it is trimmed is ordered by the new uses. -/
theorem Op.Fronts.recent {e : Entry V} (hfro : op.Fronts c.limits c.view e) (h : Stamped c t) :
    Recent Entry.key (t.after op c).used (e :: without Entry.key e.key c.view) := by
  have hud : (t.after op c).used = Function.update t.used e.key t.clock := by
    rw [Trace.after, hfro.uses]
  rw [hud]
  exact h.recent.cons_update h.used_lt

theorem Stamped.exec (h : Stamped c t) {op : Op V} (hexec : op.exec c = some c') :
    Becomes c c' (op.spec c.limits c.view) ∧ Stamped c' (t.after op c) := by
  obtain ⟨c₁, hexec₁, hbec⟩ := op.exec_eq h.linked h.bounded
  obtain rfl := mem_unique hexec hexec₁
  refine ⟨hbec, hbec.linked, ?_, ?_, Trace.after_used_lt h.used_lt op c⟩
  · obtain hdro | ⟨e, hfro⟩ := h.drops_or_fronts op
    · exact h.bounded.of_sublist h.linked hbec hdro.sublist
    · refine h.bounded.of_not_large hbec.limits ?_
      rw [hbec.view, hfro.spec]
      exact not_large_trim h.bounded.not_large_nil _
  · rw [hbec.view]
    obtain hdro | ⟨e, hfro⟩ := h.drops_or_fronts op
    · have hud : (t.after op c).used = t.used := by rw [Trace.after, hdro.uses]
      rw [hud]
      exact h.recent.sublist hdro.sublist
    · rw [hfro.spec]
      exact (hfro.recent h).sublist (trim_isPrefix _ _).sublist

theorem Valued.exec (hval : Valued c t) (h : Stamped c t) (hhee : op.Heeds c.limits c.view)
    (hexec : op.exec c = some c') : Valued c' (t.after op c) := by
  intro e he
  rw [(h.exec hexec).1.view] at he
  have hpass : (t.after op c).passed = match op.passes c.view with
    | some (key, value) => Function.update t.passed key (some value)
    | none => t.passed := rfl
  obtain hdro | ⟨_, hfro⟩ := h.drops_or_fronts op
  · have hold := hval e (hdro.sublist.mem he)
    cases hpas : op.passes c.view with
    | none =>
      rw [hpass, hpas]
      exact hold
    | some kv =>
      rw [hpass, hpas, ← hold]
      exact update_of_ne (hdro.passes hhee kv hpas e he) _ _
  · rw [hfro.spec] at he
    have hm := (trim_isPrefix _ _).mem he
    obtain ⟨hfron, hpas⟩ | hpas := hfro.passes
    · rw [hpass, hpas]
      obtain rfl | he := mem_cons.1 hm
      · exact hval _ hfron
      · exact hval _ ((mem_without _).1 he).1
    · rw [hpass, hpas]
      obtain rfl | he := mem_cons.1 hm
      · exact update_self _ _ _
      · obtain ⟨he, hne⟩ := (mem_without _).1 he
        exact (update_of_ne hne _ _).trans (hval e he)

/-- The key that a call used has an entry afterwards, and every key that it evicted was used before every
key that is left. -/
theorem Stamped.evicted (h : Stamped c t) (hexec : op.exec c = some c') {key : String}
    (hus : op.uses c.limits c.view = some key) : (∃ e ∈ c'.view, e.key = key) ∧
      ∀ e ∈ c.view, (∀ e' ∈ c'.view, e'.key ≠ e.key) →
        ∀ e' ∈ c'.view, (t.after op c).used e.key < (t.after op c).used e'.key := by
  obtain ⟨hbec, -⟩ := h.exec hexec
  obtain hdro | ⟨front, hfro⟩ := h.drops_or_fronts op
  · cases hus.symm.trans hdro.uses
  · obtain rfl := mem_unique hus hfro.uses
    rw [hbec.view, hfro.spec]
    have hfron : front ∈ trim c.limits.large (front :: without Entry.key front.key c.view) :=
      mem_trim_cons hfro.fits _
    refine ⟨⟨front, hfron, rfl⟩, fun e he hgone e' he' => ?_⟩
    have hm : e ∈ without Entry.key front.key c.view :=
      (mem_without _).2 ⟨he, fun hk => hgone front hfron hk.symm⟩
    exact (hfro.recent h).lt_of_trim (mem_cons_of_mem _ hm) (fun hkt => hgone e hkt rfl) he'

/-- A cache whose structures agree, within its limits. -/
structure Coherent (c : ByteCache V) : Prop where
  /-- The map leads from a key to the element with its entry. -/
  index : ∀ key id, c.entries.lookup key = some id ↔ ∃ e, (id, e) ∈ c.order.elements ∧ e.key = key
  nodup : (c.view.map Entry.key).Nodup
  len_eq : c.len = c.view.length
  used : c.usedBytes = (c.view.map Entry.bytes).sum
  bytes_le : c.usedBytes ≤ c.maxBytes
  len_le : (c.len : ℤ) ≤ c.maxEntries

theorem Stamped.coherent (h : Stamped c t) : Coherent c := by
  obtain ⟨hent, hbyt⟩ := h.bounded.le
  refine ⟨h.linked.index, h.linked.nodup_keys, h.linked.len_eq, h.linked.used, ?_, ?_⟩
  · rw [h.linked.used]
    exact hbyt
  · rw [h.linked.len_eq]
    exact hent

variable (maxEntries maxBytes : ℤ) (weigh : Option (String → V → ℤ))

theorem stamped_new
    (hbyt : maxBytes < 2 ^ 62) : Stamped (new maxEntries maxBytes weigh) Trace.start := by
  refine ⟨linked_empty rfl rfl rfl, ⟨?_, ?_, ?_, ?_⟩, List.Pairwise.nil, fun _ => Nat.zero_lt_one⟩
  all_goals
    simp only [new, limits, view, Limits.large, LinkedList.empty, LinkedList.values, bytesOf, map_nil,
      sum_nil, length_nil, decide_eq_false_iff_not]
    split_ifs <;> omega

/-- The run from a new cache. -/
def started : Option (ByteCache V × Trace V) :=
  some (new maxEntries maxBytes weigh, Trace.start)

/-- What holds of every state of a run. -/
def Kept (m : Limits V) (valued : Prop) (s : Option (ByteCache V × Trace V)) : Prop :=
  ∃ c t, s = some (c, t) ∧ c.limits = m ∧ Stamped c t ∧ (valued → Valued c t)

theorem Kept.call {m : Limits V} {valued : Prop} {s : Option (ByteCache V × Trace V)}
    (h : Kept m valued s) (hcar : valued → op.Careful s) : Kept m valued (op.call s) := by
  obtain ⟨c, t, rfl, hlim, hsta, hval⟩ := h
  obtain ⟨c', hexec, hbec⟩ := op.exec_eq hsta.linked hsta.bounded
  refine ⟨c', t.after op c, ?_, hbec.limits.trans hlim, (hsta.exec hexec).2, fun hv => ?_⟩
  · change (op.exec c).map _ = _
    rw [hexec]
    rfl
  · exact (hval hv).exec hsta (hcar hv _ rfl) hexec

/-- **The byte cache is a coherent bounded LRU cache.** Every run of calls on a new cache returns, with
any clock. Its map and its list have the same entries, within the limits. A call that uses a key leaves
an entry for it, and what it evicts was used before everything that is left. If no value out of
range is set for a key that has an entry, a key is only ever found with the value passed for it last. -/
theorem byteCache_lru (hbytes : maxBytes < 2 ^ 62) (ops : List (Op V)) :
    ∃ c t, run Op.call (started maxEntries maxBytes weigh) ops = some (c, t) ∧
      c.limits = (new maxEntries maxBytes weigh).limits ∧ Coherent c ∧
      (∀ op : Op V, ∃ c', op.exec c = some c' ∧ ∀ key ∈ op.uses c.limits c.view, key ∈ c'.entries ∧
        ∀ k ∈ c.entries, k ∉ c'.entries → ∀ k' ∈ c'.entries,
          (t.after op c).used k < (t.after op c).used k') ∧
      (Along Op.call Op.Careful (started maxEntries maxBytes weigh) ops →
        ∀ key now value, (c.get key now).1 = some value → t.passed key = some value) := by
  have hstart (valued : Prop) :
      Kept (new maxEntries maxBytes weigh).limits valued (started maxEntries maxBytes weigh) :=
    ⟨_, _, rfl, rfl, stamped_new maxEntries maxBytes weigh hbytes, fun _ => nofun⟩
  obtain ⟨c, t, hrun, hlimits, hstamped, -⟩ := run_rule_any (P := Kept _ False)
    (fun _ _ h => h.call False.elim) (hstart False) ops
  refine ⟨c, t, hrun, hlimits, hstamped.coherent, fun op => ?_, fun hcareful key now value hget => ?_⟩
  · obtain ⟨c', hexec, hbecomes⟩ := op.exec_eq hstamped.linked hstamped.bounded
    refine ⟨c', hexec, fun key hkey => ?_⟩
    obtain ⟨hfound, hlast⟩ := hstamped.evicted hexec hkey
    refine ⟨hbecomes.linked.mem_entries_iff.2 hfound, fun k hk hgone k' hk' => ?_⟩
    obtain ⟨e, he, rfl⟩ := hstamped.linked.mem_entries_iff.1 hk
    obtain ⟨e', he', rfl⟩ := hbecomes.linked.mem_entries_iff.1 hk'
    exact hlast e he (fun x hx hxkey => hgone (hbecomes.linked.mem_entries_iff.2 ⟨x, hx, hxkey⟩)) e' he'
  · obtain ⟨c₁, t₁, hrun₁, -, -, hvalued⟩ := run_rule (P := Kept _ True)
      (fun _ _ hok h => h.call fun _ => hok) (hstart True) hcareful
    obtain ⟨⟩ := mem_unique hrun hrun₁
    rw [(hstamped.linked.get hstamped.bounded.small key now).1] at hget
    obtain ⟨e, hlive, rfl⟩ := map_eq_some_iff.1 hget
    obtain ⟨hmem, rfl⟩ := live_eq_some hlive
    exact hvalued trivial e hmem

/-- A cache of two entries, whose values weigh what they are. -/
def exampleStarted : Option (ByteCache ℤ × Trace ℤ) := started 2 100 (some fun _ value => value)

/-- The second key makes room for the third one, since the first one was read in between. -/
theorem byteCache_lru_evicts : ∃ c t,
    run Op.call exampleStarted [.store "a" 1 0, .store "b" 2 0, .get "a" 1, .store "c" 3 2] = some (c, t) ∧
      Coherent c ∧ "b" ∉ c.entries ∧ (c.get "a" 3).1 = some 1 ∧ t.passed "a" = some 1 := by
  have hcareful : Along Op.call Op.Careful exampleStarted
      [.store "a" 1 0, .store "b" 2 0, .get "a" 1, .store "c" 3 2] := by decide +kernel
  have hend : (run Op.call exampleStarted [.store "a" 1 0, .store "b" 2 0, .get "a" 1, .store "c" 3 2]).map
      (fun x => (x.1.entries.keys, (x.1.get "a" 3).1)) = some (["c", "a"], some 1) := by decide +kernel
  obtain ⟨c, t, hrun, -, hcoherent, -, hvalues⟩ :=
    byteCache_lru 2 100 (some fun _ value => value) (by decide)
      [.store "a" 1 0, .store "b" 2 0, .get "a" 1, .store "c" 3 2]
  refine ⟨c, t, hrun, hcoherent, ?_⟩
  rw [exampleStarted, hrun, map_some, some_inj, Prod.mk.injEq] at hend
  refine ⟨?_, hend.2, hvalues hcareful "a" 3 1 hend.2⟩
  rw [AList.mem_keys, hend.1]
  decide

/-- A value that is too heavy is passed for a key with an entry: the old value is still found. -/
theorem heavy_value_not_stored : (run Op.call exampleStarted [.store "a" 1 0, .store "a" 101 1]).map
      (fun x => ((x.1.get "a" 2).1, x.2.passed "a")) = some (some 1, some 101) := by
  decide +kernel

end LmmApi.Cache
