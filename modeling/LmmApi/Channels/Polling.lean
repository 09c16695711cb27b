import LmmApi.Channels.Status
import Mathlib.Data.List.Rotate

/-!
# Polling is a fair rotation

A call of `GetNextEnabledKey` finds the runtime state of its channel, or stores one with the polling
index of its own copy of the channel, and then selects a key while it holds the lock of the state. A
refresh of the cache keeps the states of the channels in its snapshot, so no step stands for it.
-/

namespace LmmApi.Channels

open List Option

inductive PollStep
  /-- `getChannelRuntimeState`, with the polling index of the caller's copy. -/
  | arrive (initial : ℤ)
  /-- A call that waits for the lock gets it. -/
  | serve

variable (c : Channel)

/-- The answers in the order in which the calls hold the lock, `none` for an error. The state is the
stored polling index and the number of calls that wait. -/
def answers : Option ℤ → ℕ → List PollStep → List (Option (String × ℕ))
  | stored, waiting, .arrive initial :: steps =>
    answers (some (stored.getD initial)) (waiting + 1) steps
  | some p, waiting + 1, .serve :: steps =>
    match getNextEnabledKey .polling (fun _ => 0) p c with
    | some (key, i, next) => some (key, i) :: answers (some next) waiting steps
    | none => none :: answers (some p) waiting steps
  | stored, waiting, .serve :: steps => answers stored waiting steps
  | _, _, [] => []

/-- The enabled indices. -/
def Channel.enabled : List ℕ := (List.range c.keys.length).filter fun i => c.keyStatus i = .enabled

/-- The enabled indices in the order in which polling meets them. -/
def Channel.cycle (p : ℤ) : List ℕ :=
  (pollingOrder c.keys.length p).filter fun i => c.keyStatus i = .enabled

/-- The answers of `n` calls that return the indices in cyclic order. -/
def Channel.rounds (cycle : List ℕ) (n : ℕ) : List (Option (String × ℕ)) :=
  (List.range n).map fun j => (cycle.rotate j).head?.map fun i => (c.keys.getD i "", i)

variable {c} {p : ℤ} {n : ℕ}

theorem pollingOrder_eq (n : ℕ) (p : ℤ) : pollingOrder n p =
    (List.range n).rotate (if p < 0 ∨ n ≤ p then 0 else p.toNat) := by
  refine ext_getElem (by simp [pollingOrder]) fun i _ _ => ?_
  simp [pollingOrder, getElem_rotate, Nat.add_comm]

theorem cycle_isRotated (c : Channel) (p : ℤ) : c.cycle p ~r c.enabled := by
  rw [Channel.cycle, pollingOrder_eq, rotate_eq_drop_append_take_mod, filter_append, Channel.enabled]
  generalize (_ : ℕ) % _ = k
  conv_rhs => rw [← take_append_drop k (List.range _), filter_append]
  exact isRotated_append

/-- The search stops at `i`; from behind it, the next one meets the indices in the same order. -/
theorem pollingOrder_next {i : ℕ} {before after : List ℕ}
    (h : pollingOrder n p = before ++ i :: after) :
    pollingOrder n ((i + 1) % n : ℕ) = after ++ (before ++ [i]) := by
  rw [append_cons, pollingOrder_eq] at h
  generalize (if p < 0 ∨ n ≤ p then 0 else p.toNat) = start at h
  have hn : n = (before ++ [i] ++ after).length := by rw [← h, length_rotate, length_range]
  have hget : ((List.range n).rotate start)[before.length]? = some i := by simp [h]
  obtain ⟨_, hi⟩ := List.getElem?_eq_some_iff.1 hget
  rw [getElem_rotate, getElem_range, length_range] at hi
  have hlt := Nat.mod_lt (i + 1) (show 0 < n by simp [hn])
  calc pollingOrder n ((i + 1) % n : ℕ) = (List.range n).rotate ((i + 1) % n) := by
        rw [pollingOrder_eq, if_neg (by omega), Int.toNat_natCast]
    _ = ((List.range n).rotate start).rotate (before.length + 1) := by
        rw [← hi, Nat.mod_add_mod, rotate_rotate, ← rotate_mod _ (start + _), length_range,
          Nat.add_right_comm, Nat.add_comm start]
    _ = after ++ (before ++ [i]) := by
        rw [h]
        simpa using rotate_append_length_eq (before ++ [i]) after

/-- As many consecutive answers as there are indices name each of them once. -/
theorem take_drop_rounds {cycle : List ℕ} {a : ℕ} (h : a + cycle.length ≤ n) :
    ((c.rounds cycle n).drop a).take cycle.length =
      (cycle.rotate a).map fun i => some (c.keys.getD i "", i) := by
  refine ext_getElem (by simp [Channel.rounds]; omega) fun i _ hi => ?_
  have hlt : i < (cycle.rotate a).length := by simpa using hi
  have hhead : (cycle.rotate (a + i)).head? = some (cycle.rotate a)[i] := by
    rw [← rotate_rotate, head?_rotate hlt, getElem?_eq_getElem hlt]
  simp only [Channel.rounds, getElem_take, getElem_drop, getElem_map, getElem_range, hhead, map_some]

variable (hmulti : c.isMultiKey) (hen : 0 < c.enabled.length)
include hmulti hen

/-- **One call** returns the first enabled index, which the next call meets last. -/
theorem getNextEnabledKey_polling (p : ℤ) :
    ∃ i next, getNextEnabledKey .polling (fun _ => 0) p c = some (c.keys.getD i "", i, next) ∧
      (c.cycle p).head? = some i ∧ c.cycle next = (c.cycle p).rotate 1 := by
  obtain ⟨i, hhead⟩ := isSome_iff_exists.1
    (isSome_head?.2 (length_pos_iff.1 ((cycle_isRotated c p).perm.length_eq ▸ hen)))
  have hi := hhead
  rw [Channel.cycle, head?_filter] at hi
  obtain ⟨hus, before, after, hord, hno⟩ := find?_eq_some_iff_append.1 hi
  have hbef : before.filter (fun i => c.keyStatus i = .enabled) = [] :=
    filter_eq_nil_iff.2 fun a ha => by simpa using hno a ha
  refine ⟨i, ((i + 1) % c.keys.length : ℕ), ?_, hhead, ?_⟩
  · simp only [getNextEnabledKey, hmulti, Bool.true_eq_false, if_false, hi, map_some]
  · rw [Channel.cycle, Channel.cycle, pollingOrder_next hord, hord]
    simp [hbef, hus]

theorem answers_eq_rounds (stored : Option ℤ) (waiting : ℕ) (steps : List PollStep) :
    ∃ cycle n, cycle ~r c.enabled ∧ answers c stored waiting steps = c.rounds cycle n ∧
      ∀ p ∈ stored, cycle = c.cycle p := by
  induction steps generalizing stored waiting with
  | nil =>
    cases stored with
    | none => exact ⟨_, 0, .refl _, by simp [answers, Channel.rounds], by simp⟩
    | some p => exact ⟨_, 0, cycle_isRotated c p, by simp [answers, Channel.rounds], by simp⟩
  | cons step steps ih =>
    cases step with
    | arrive initial =>
      obtain ⟨cycle, n, hrot, hn, hcyc⟩ := ih (some (stored.getD initial)) (waiting + 1)
      exact ⟨cycle, n, hrot, hn, fun p hp => hcyc p (by rw [hp, getD_some]; rfl)⟩
    | serve =>
      cases stored with
      | none => exact ih none waiting
      | some p =>
        cases waiting with
        | zero => exact ih (some p) 0
        | succ waiting =>
          obtain ⟨i, next, hkey, hhead, hrot⟩ := getNextEnabledKey_polling hmulti hen p
          obtain ⟨_, n, -, hn, hcyc⟩ := ih (some next) waiting
          obtain rfl := hcyc next rfl
          refine ⟨_, n + 1, cycle_isRotated c p, ?_, by simp⟩
          simp [answers, hkey, hn, hrot, Channel.rounds, range_succ_eq_map, hhead, Nat.add_comm 1,
            Function.comp_def]

/-- **Polling is a fair rotation**: whatever polling index is stored, and however calls interleave,
they return the enabled keys in cyclic order, so that as many consecutive calls as there are enabled
keys return each of them once, and none returns another key or an error. -/
theorem polling_fair (stored : Option ℤ) (steps : List PollStep) :
    (∃ cycle n, cycle ~r c.enabled ∧ answers c stored 0 steps = c.rounds cycle n) ∧
    (∀ answer ∈ answers c stored 0 steps,
      ∃ i ∈ c.enabled, answer = some (c.keys.getD i "", i)) ∧
    ∀ a, a + c.enabled.length ≤ (answers c stored 0 steps).length →
      ((answers c stored 0 steps).drop a).take c.enabled.length ~
        c.enabled.map fun i => some (c.keys.getD i "", i) := by
  obtain ⟨cycle, n, hcycle, hanswers, -⟩ := answers_eq_rounds hmulti hen stored 0 steps
  refine ⟨⟨cycle, n, hcycle, hanswers⟩, ?_⟩
  rw [hanswers, ← hcycle.perm.length_eq]
  refine ⟨fun answer hanswer => ?_, fun a ha => ?_⟩
  · obtain ⟨j, -, rfl⟩ := List.mem_map.1 hanswer
    have hne : cycle.rotate j ≠ [] :=
      length_pos_iff.1 (by rwa [length_rotate, hcycle.perm.length_eq])
    refine ⟨_, hcycle.mem_iff.1 (mem_rotate.1 (head_mem hne)), ?_⟩
    rw [head?_eq_some_head hne, map_some]
  · rw [take_drop_rounds (by simpa [Channel.rounds] using ha)]
    exact ((rotate_perm cycle a).trans hcycle.perm).map _

omit hmulti hen in
theorem polling_fair_triple :
    ((answers triple.channel (some 7) 0 [.arrive 0, .arrive 5, .serve, .arrive 1, .serve, .serve]).drop
      1).take 2 ~ [some ("a", 0), some ("c", 2)] :=
  (polling_fair (c := triple.channel) rfl (by decide) (some 7) _).2.2 1 (by decide)

end LmmApi.Channels
