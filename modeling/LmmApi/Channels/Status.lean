import LmmApi.Lib.Attribution
import Mathlib.Data.List.Perm.Subperm

/-!
# The status of a channel and of its keys

`updateChannelStatus` is the one transaction behind the administrator's status changes, the
automatic disabling after errors, the automatic enabling after a test and the recovery of a key. A
channel with several keys keeps a status for each of them, by index, and is disabled with its last
enabled key.

Automatic disabling overwrites a status set by hand, and what was disabled automatically is enabled
again by a test: `manual_disable_holds` says which steps a channel disabled by hand survives.
Selection returns an index, but a report is matched by the text of the key to the first equal entry:
`failing_key_leaves_rotation_iff` says for which key lists reported keys leave the rotation.
-/

namespace LmmApi.Channels

open Attribution Function List Option

/-- `ChannelStatus…` of the source. -/
inductive Status
  | unknown
  | enabled
  | manuallyDisabled
  | autoDisabled
  deriving DecidableEq

/-- The columns that status changes read and write. `keys` is what `GetKeys` reads from `key`. -/
structure Channel where
  status : Status
  isMultiKey : Bool
  key : String
  keys : List String
  multiKeyStatusList : ℕ → Option Status

variable (c : Channel) (usingKey : String) (status : Status)

/-- The status of a key: a missing entry is an enabled key. -/
def Channel.keyStatus (i : ℕ) : Status := (c.multiKeyStatusList i).getD .enabled

def Channel.hasEnabledMultiKey : Prop :=
  ∃ i ∈ List.range c.keys.length, c.keyStatus i = .enabled
  deriving Decidable

/-- The status list with another entry for a key. -/
def Channel.setKey (i : ℕ) (status : Option Status) : Channel :=
  { c with multiKeyStatusList := Function.update c.multiKeyStatusList i status }

/-- A report about a key, matched to the first entry with its text. -/
def handlerMultiKeyUpdate : Channel :=
  if c.keys = [] then { c with status := status }
  else if usingKey ∉ c.keys then
    if usingKey ≠ "" then c else { c with status := status }
  else
    let c := c.setKey (c.keys.idxOf usingKey) (if status = .enabled then none else some status)
    if ¬c.hasEnabledMultiKey then { c with status := .autoDisabled }
    else if status = .enabled then { c with status := .enabled }
    else c

/-- The transaction; `none` when it writes nothing. -/
def updateChannelStatus (recoveryIndex : Option ℕ) : Option Channel :=
  if c.status = status ∧ c.isMultiKey = false then none
  else match recoveryIndex with
    | some i =>
      if c.isMultiKey = false ∨ c.status = .manuallyDisabled ∨ c.keys[i]? ≠ some usingKey ∨
          c.multiKeyStatusList i ≠ some .autoDisabled then none
      else some { c.setKey i none with status := .enabled }
    | none =>
      some (if c.isMultiKey then handlerMultiKeyUpdate c usingKey status
        else { c with status := status })

/-! ## A status set by hand -/

/-- The stored channel, and the tests under way that saw it auto-disabled. -/
structure State where
  channel : Channel
  seen : ℕ

/-- The parties that change the status. -/
inductive Step
  /-- The status handlers of the administrator, which name no key. -/
  | admin (status : Status)
  /-- `EnableChannelByTag` and `DisableChannelByTag`. -/
  | byTag (enable : Bool)
  /-- `DisableChannel` for an error of a request with this key. -/
  | disableChannel (usingKey : String)
  /-- A successful test reads the status for `ShouldEnableChannel`. -/
  | test
  /-- `EnableChannel` at the end of such a test. -/
  | enableChannel (usingKey : String)
  | recoverChannelKey (index : ℕ) (key : String)

/-- `UpdateChannelStatus`: the stored channel after it. -/
def Channel.update : Channel := (updateChannelStatus c usingKey status none).getD c

def exec : Step → State → State
  | .admin status, s =>
    -- `isManageableChannelStatus`
    if status = .enabled ∨ status = .manuallyDisabled then
      { s with channel := s.channel.update "" status }
    else s
  | .byTag enable, s =>
    { s with channel.status := if enable then .enabled else .manuallyDisabled }
  | .disableChannel key, s => { s with channel := s.channel.update key .autoDisabled }
  | .test, s => if s.channel.status = .autoDisabled then { s with seen := s.seen + 1 } else s
  | .enableChannel key, s =>
    if s.seen = 0 then s else ⟨s.channel.update key .enabled, s.seen - 1⟩
  | .recoverChannelKey i key, s =>
    { s with channel := (updateChannelStatus s.channel key .enabled (some i)).getD s.channel }

/-- The administrator asks for the channel to be enabled. -/
def Step.Enables : Step → Prop
  | .admin status => status = .enabled
  | .byTag enable => enable
  | _ => False

/-- A report that leaves the status of a channel disabled by hand alone: it is about one of several
keys and another key stays enabled, or about a key the channel no longer has. -/
def Channel.Spares : Prop :=
  if c.isMultiKey ∧ usingKey ∈ c.keys then
    status ≠ .enabled ∧ (c.setKey (c.keys.idxOf usingKey) (some status)).hasEnabledMultiKey
  else status = .manuallyDisabled ∨ (c.isMultiKey ∧ c.keys ≠ [] ∧ usingKey ≠ "")
  deriving Decidable

/-- What the steps must respect while the channel is disabled by hand. -/
def Respects : Step → State → Prop
  | .admin status, s => s.channel.status = .manuallyDisabled → s.channel.Spares "" status
  | .disableChannel key, s =>
    s.channel.status = .manuallyDisabled → s.channel.Spares key .autoDisabled
  | .enableChannel key, s =>
    s.channel.status = .manuallyDisabled → s.seen = 0 ∨ s.channel.Spares key .enabled
  | _, _ => True

/-- **One report**: a channel disabled by hand stays so exactly when the report spares it. -/
theorem update_status_iff {c : Channel} (h : c.status = .manuallyDisabled) (key : String)
    (status : Status) : (c.update key status).status = .manuallyDisabled ↔ c.Spares key status := by
  unfold Channel.update updateChannelStatus Channel.Spares
  cases hmulti : c.isMultiKey with
  | false =>
    by_cases hs : c.status = status
    · simp [hs, ← h]
    · simp [hs]
  | true =>
    simp only [Bool.true_eq_false, and_false, if_false, if_true, getD_some, true_and,
      handlerMultiKeyUpdate]
    by_cases hkeys : c.keys = []
    · simp [hkeys]
    · by_cases hk : key ∈ c.keys
      · by_cases henabled : status = .enabled
        · simp only [hkeys, hk, henabled, not_true, if_false, if_true, ne_eq, false_and, iff_false]
          split <;> simp
        · simp only [hkeys, hk, henabled, not_true, if_false, if_true, ne_eq, not_false_eq_true,
            true_and]
          split
          next hn => simpa using hn
          next hsm => simpa [Channel.setKey, h] using hsm
      · simp only [hkeys, hk, not_false_eq_true, if_true, if_false]
        by_cases hempty : key = "" <;> simp [hempty, h, hkeys]

/-- A step that respects a status set by hand keeps it, unless the administrator enables. -/
theorem exec_manual {i : Step} {s : State} (hok : Respects i s) (henable : ¬i.Enables)
    (h : s.channel.status = .manuallyDisabled) : (exec i s).channel.status = .manuallyDisabled := by
  cases i with
  | admin status =>
    simp only [exec]
    split
    · exact (update_status_iff h "" status).2 (hok h)
    · exact h
  | byTag => simpa [exec, Step.Enables] using henable
  | disableChannel key => exact (update_status_iff h key _).2 (hok h)
  | test =>
    simp only [exec]
    split <;> exact h
  | enableChannel key =>
    simp only [exec]
    split
    · exact h
    next hseen => exact (update_status_iff h key _).2 ((hok h).resolve_left hseen)
  | recoverChannelKey i key =>
    -- the recovery looks for a status set by hand under the lock
    have hn : updateChannelStatus s.channel key .enabled (some i) = none := by
      simp [updateChannelStatus, h]
    simpa [exec, hn] using h

/-- **A channel disabled by hand stays out of service.** If the automatic reports after it respect a
status set by hand, a channel that the administrator disabled is not enabled before the
administrator enables it. -/
theorem manual_disable_holds (s : State) (before after : List Step) (disable : Step)
    (hset : (exec disable (run exec s before)).channel.status = .manuallyDisabled)
    (hafter : ∀ i ∈ after, ¬i.Enables)
    (hok : Along exec Respects (exec disable (run exec s before)) after) :
    (run exec s (before ++ disable :: after)).channel.status ≠ .enabled := by
  have hrun : ∀ after s, s.channel.status = .manuallyDisabled → (∀ i ∈ after, ¬i.Enables) →
      Along exec Respects s after → (run exec s after).channel.status = .manuallyDisabled := by
    intro after
    induction after with
    | nil => exact fun _ h _ _ => h
    | cons _ _ ih =>
      intro s h hnot hok
      obtain ⟨hi, hnot⟩ := forall_mem_cons.1 hnot
      exact ih _ (exec_manual hok.1 hi h) hnot hok.2
  have hend := hrun after _ hset hafter hok
  rw [run, foldl_append, foldl_cons]
  exact ne_of_eq_of_ne hend (by decide)

/-- A channel with one key, and one with three keys of which the second is disabled. -/
def single : State := ⟨⟨.enabled, false, "a", ["a"], fun _ => none⟩, 0⟩
def triple : State :=
  ⟨⟨.enabled, true, "a\nb\nc", ["a", "b", "c"], fun i => if i = 1 then some .autoDisabled else none⟩,
    0⟩

/-- An error that is reported after the administrator disabled the channel, and then a test. -/
theorem late_error_revives : (run exec single
    [.admin .manuallyDisabled, .disableChannel "a", .test, .enableChannel "a"]).channel.status =
      .enabled := by
  decide +kernel

theorem manual_disable_holds_triple : (run exec triple ([.test] ++ .admin .manuallyDisabled ::
      [.disableChannel "b", .recoverChannelKey 1 "b"])).channel.status ≠ .enabled :=
  manual_disable_holds triple _ _ _ (by decide +kernel) (by simp [Step.Enables])
    ⟨fun _ => by decide +kernel, trivial, trivial⟩

/-! ## The rotation of the keys -/

inductive MultiKeyMode
  | random
  | polling
  | other

/-- The reservoir sampling of the enabled indices; `intN k % k` is the draw from `k` numbers. -/
def reservoir (intN : ℕ → ℕ) : List ℕ → ℕ → Option ℕ → Option ℕ
  | [], _, selected => selected
  | i :: is, seen, selected =>
    reservoir intN is (seen + 1) (if intN (seen + 1) % (seen + 1) = 0 then some i else selected)

/-- The order in which polling looks at `n` keys. -/
def pollingOrder (n : ℕ) (pollingIndex : ℤ) : List ℕ :=
  let start := if pollingIndex < 0 ∨ n ≤ pollingIndex then 0 else pollingIndex.toNat
  (List.range n).map fun i => (start + i) % n

/-- The key, its index and the polling index of the next call; `none` for its errors. -/
def getNextEnabledKey (mode : MultiKeyMode) (intN : ℕ → ℕ) (pollingIndex : ℤ) (c : Channel) :
    Option (String × ℕ × ℤ) :=
  if c.isMultiKey = false then some (c.key, 0, pollingIndex)
  else
    let n := c.keys.length
    let usable := fun i => decide (c.keyStatus i = .enabled)
    match mode with
    | .random =>
      (reservoir intN ((List.range n).filter usable) 0 none).map fun i =>
        (c.keys.getD i "", i, pollingIndex)
    | .polling =>
      ((pollingOrder n pollingIndex).find? usable).map fun i =>
        (c.keys.getD i "", i, ((i + 1) % n : ℕ))
    | .other => ((List.range n).find? usable).map fun i => (c.keys.getD i "", i, pollingIndex)

/-- A round: a key is returned and reported as failing. -/
def round (mode : MultiKeyMode) (intN : ℕ → ℕ) (s : Channel × ℤ) : Option (String × Channel × ℤ) :=
  (getNextEnabledKey mode intN s.2 s.1).map fun r => (r.1, s.1.update r.1 .autoDisabled, r.2.2)

/-- The keys that a sequence of rounds returns. -/
inductive Rounds (mode : MultiKeyMode) : Channel × ℤ → List String → Channel × ℤ → Prop
  | nil (s) : Rounds mode s [] s
  | cons {s s' t key keys} (intN : ℕ → ℕ) (h : round mode intN s = some (key, s'))
      (hs : Rounds mode s' keys t) : Rounds mode s (key :: keys) t

/-- No key text is returned twice, and when no key is left the channel is auto-disabled. -/
def TakenOut (mode : MultiKeyMode) (s : Channel × ℤ) : Prop :=
  ∀ keys t, Rounds mode s keys t → keys.Nodup ∧
    (keys ≠ [] → (∀ intN, round mode intN t = none) → t.1.status = .autoDisabled)

variable {mode : MultiKeyMode} {intN : ℕ → ℕ} {c : Channel} {p : ℤ} {s t : Channel × ℤ}
  {key : String} {keys : List String}

theorem reservoir_mem {is : List ℕ} {seen i : ℕ} {selected : Option ℕ}
    (h : reservoir intN is seen selected = some i) : i ∈ is ∨ selected = some i := by
  induction is generalizing seen selected with
  | nil => exact .inr h
  | cons _ _ ih =>
    obtain hi | hi := ih h
    · exact .inl (.tail _ hi)
    · split at hi
      · cases hi
        exact .inl (.head _)
      · exact .inr hi

theorem reservoir_isSome {is : List ℕ} {seen : ℕ} {selected : Option ℕ}
    (h : selected.isSome ∨ is ≠ [] ∧ seen = 0) : (reservoir intN is seen selected).isSome := by
  induction is generalizing seen selected with
  | nil => simpa [reservoir] using h
  | cons _ _ ih =>
    apply ih
    obtain h | ⟨-, rfl⟩ := h
    · split <;> simp [h]
    · simp [Nat.mod_one]

/-- **The keys in rotation**: a key is returned exactly while one is enabled, and it is an enabled
one with its index. -/
theorem getNextEnabledKey_mem {i : ℕ} {q : ℤ} (hmulti : c.isMultiKey = true)
    (h : getNextEnabledKey mode intN p c = some (key, i, q)) :
    i < c.keys.length ∧ c.keyStatus i = .enabled ∧ c.keys.getD i "" = key := by
  cases mode <;> simp only [getNextEnabledKey, hmulti, Bool.true_eq_false, if_false,
    map_eq_some_iff, Prod.mk.injEq] at h
  case random =>
    obtain ⟨j, hj, hkey, rfl, -⟩ := h
    have hm := (reservoir_mem hj).resolve_right nofun
    simp only [mem_filter, mem_range, decide_eq_true_eq] at hm
    exact ⟨hm.1, hm.2, hkey⟩
  case polling =>
    obtain ⟨j, hj, hkey, rfl, -⟩ := h
    obtain ⟨k, hk, rfl⟩ := List.mem_map.1 (mem_of_find?_eq_some hj)
    exact ⟨Nat.mod_lt _ (Nat.zero_lt_of_lt (mem_range.1 hk)), by simpa using find?_some hj, hkey⟩
  case other =>
    obtain ⟨j, hj, hkey, rfl, -⟩ := h
    exact ⟨mem_range.1 (mem_of_find?_eq_some hj), by simpa using find?_some hj, hkey⟩

theorem round_isSome (hmulti : s.1.isMultiKey = true) (h : s.1.hasEnabledMultiKey) :
    (round mode intN s).isSome := by
  obtain ⟨i, hi, henabled⟩ := h
  cases mode <;> simp only [round, getNextEnabledKey, hmulti, Bool.true_eq_false, if_false,
    isSome_map]
  case random =>
    apply reservoir_isSome (.inr ⟨ne_nil_of_mem (a := i) ?_, rfl⟩)
    simp [mem_range.1 hi, henabled]
  case other => exact find?_isSome.2 ⟨i, hi, by simpa using henabled⟩
  case polling =>
    -- the search wraps around, so that it meets every index
    have hn := mem_range.1 hi
    refine find?_isSome.2 ⟨i, List.mem_map.2 ⟨_, mem_range.2 (Nat.mod_lt
      (i + s.1.keys.length - if s.2 < 0 ∨ s.1.keys.length ≤ s.2 then 0 else s.2.toNat)
      (by omega)), ?_⟩, by simpa using henabled⟩
    rw [Nat.add_mod_mod, Nat.add_sub_cancel' (by split <;> omega), Nat.add_mod_right,
      Nat.mod_eq_of_lt hn]

/-- The channel after a round: the first entry with the text of the key is auto-disabled, and the
channel with its last enabled key. -/
theorem round_eq_some (hmulti : s.1.isMultiKey = true) (h : round mode intN s = some (key, t)) :
    (∃ i < s.1.keys.length, s.1.keyStatus i = .enabled ∧ s.1.keys.getD i "" = key) ∧
    t.1.isMultiKey = true ∧ t.1.keys = s.1.keys ∧ (∀ j, t.1.keyStatus j =
      if j = s.1.keys.idxOf key then .autoDisabled else s.1.keyStatus j) ∧
    (¬t.1.hasEnabledMultiKey → t.1.status = .autoDisabled) := by
  obtain ⟨⟨_, i, q⟩, hn, ⟨⟩⟩ := map_eq_some_iff.1 h
  obtain ⟨hi, henabled, rfl⟩ := getNextEnabledKey_mem hmulti hn
  have hm : s.1.keys.getD i "" ∈ s.1.keys := by simp [hi]
  refine ⟨⟨i, hi, henabled, rfl⟩, ?_⟩
  simp only [Channel.update, updateChannelStatus, hmulti, Bool.true_eq_false, and_false, if_false,
    if_true, getD_some, handlerMultiKeyUpdate, ne_nil_of_mem hm, hm, not_true,
    reduceCtorEq]
  split
  next _ =>
    refine ⟨hmulti, rfl, fun j => ?_, fun _ => rfl⟩
    simp only [Channel.keyStatus, Channel.setKey, update_apply]
    split <;> rfl
  next hsm =>
    refine ⟨hmulti, rfl, fun j => ?_, fun h => absurd h hsm⟩
    simp only [Channel.keyStatus, Channel.setKey, update_apply]
    split <;> rfl

/-- A key that is enabled is the first one with its text. -/
def Channel.FirstOnly (c : Channel) : Prop :=
  ∀ i ∈ List.range c.keys.length, c.keyStatus i = .enabled → c.keys.idxOf (c.keys.getD i "") = i
  deriving Decidable

theorem Rounds.sound (hs : Rounds mode s keys t) (hmulti : s.1.isMultiKey = true)
    (hfirst : s.1.FirstOnly) : keys.Nodup ∧
      (∀ key ∈ keys, s.1.keyStatus (s.1.keys.idxOf key) = .enabled) ∧ t.1.isMultiKey = true ∧
      (keys ≠ [] → ¬t.1.hasEnabledMultiKey → t.1.status = .autoDisabled) := by
  induction hs with
  | nil => simp [hmulti]
  | @cons _ _ _ key _ _ h hs ih =>
    obtain ⟨⟨i, hi, henabled, rfl⟩, hmulti', hkeys, hstatus, hl⟩ := round_eq_some hmulti h
    obtain ⟨hnodup, hall, ht, hend⟩ := ih hmulti' fun j hj hen => by
      rw [hstatus] at hen
      split at hen
      · cases hen
      · rw [hkeys] at hj ⊢
        exact hfirst j hj hen
    simp only [hkeys, hstatus] at hall
    refine ⟨nodup_cons.2 ⟨fun hm => ?_, hnodup⟩, fun key hk => ?_, ht, fun _ hn => ?_⟩
    · simpa using hall _ hm
    · obtain rfl | hk := mem_cons.1 hk
      · rwa [hfirst i (mem_range.2 hi) henabled]
      · have hk := hall key hk
        split at hk
        · cases hk
        · exact hk
    · cases hs with
      | nil => exact hl hn
      | cons => exact hend nofun hn

/-- An enabled key that repeats an earlier one is never disabled by a report. -/
theorem exists_rounds {i : ℕ} (hmulti : s.1.isMultiKey = true) (hi : i < s.1.keys.length)
    (henabled : s.1.keyStatus i = .enabled) (hrepeats : s.1.keys.idxOf (s.1.keys.getD i "") ≠ i)
    (n : ℕ) : ∃ keys t, Rounds mode s keys t ∧ keys.length = n ∧ keys ⊆ s.1.keys := by
  induction n generalizing s with
  | zero => exact ⟨[], s, .nil s, rfl, nil_subset _⟩
  | succ _ ih =>
    have hsm : (round mode id s).isSome := round_isSome hmulti ⟨i, mem_range.2 hi, henabled⟩
    obtain ⟨⟨key, s'⟩, h⟩ := isSome_iff_exists.1 hsm
    obtain ⟨⟨j, hj, -, hk⟩, hmulti', hkeys, hstatus, -⟩ := round_eq_some hmulti h
    have hm : key ∈ s.1.keys := by simp [← hk, hj]
    have hne : i ≠ s.1.keys.idxOf key := by
      rintro rfl
      simp [hi] at hrepeats
    obtain ⟨_, t, hrounds, hlength, hsub⟩ := ih hmulti' (hkeys ▸ hi)
      (by rw [hstatus, if_neg hne, henabled]) (hkeys ▸ hrepeats)
    exact ⟨_, t, .cons id h hrounds, congrArg (· + 1) hlength, cons_subset.2 ⟨hm, hkeys ▸ hsub⟩⟩

/-- **A failing key leaves the rotation** exactly when every enabled key is the first one with its
text: only then the report of a key disables the entry that was returned. -/
theorem failing_key_leaves_rotation_iff (mode : MultiKeyMode) (c : Channel) (pollingIndex : ℤ)
    (hmulti : c.isMultiKey = true) : TakenOut mode (c, pollingIndex) ↔ c.FirstOnly := by
  constructor
  · intro h i hi henabled
    by_contra hrepeats
    obtain ⟨keys, t, hrounds, hlength, hsub⟩ :=
      exists_rounds (s := (c, pollingIndex)) hmulti (mem_range.1 hi) henabled hrepeats
        (c.keys.length + 1)
    have hle : keys.length ≤ c.keys.length := (List.Nodup.subperm (h keys t hrounds).1 hsub).length_le
    omega
  · intro h keys t hrounds
    obtain ⟨hnodup, -, ht, hlast⟩ := hrounds.sound hmulti h
    refine ⟨hnodup, fun hne hnone => hlast hne fun henabled => ?_⟩
    have hsome : (round mode id t).isSome := round_isSome ht henabled
    simp [hnone id] at hsome

theorem failing_key_leaves_rotation_triple : TakenOut .polling (triple.channel, 1) :=
  (failing_key_leaves_rotation_iff .polling triple.channel 1 rfl).2 (by decide +kernel)

/-- The second of two equal keys stays in rotation. -/
theorem repeated_key_returned_again :
    ¬TakenOut .other (⟨.enabled, true, "a\na", ["a", "a"], fun _ => none⟩, 0) := fun h =>
  absurd (h ["a", "a"] _ (.cons id rfl (.cons id rfl (.nil _)))).1 (by decide)

end LmmApi.Channels
