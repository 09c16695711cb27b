import LmmApi.AsyncTask.Change

/-!
# A task is refunded once

The refund of a task is marked on its row, and a row whose refund is completed is not refunded
again. But every reader writes back all columns of the row it read, under a guard on the status
only. A copy that was read before the refund takes the mark away again, and the task is refunded
twice (`task_refunded_twice`). Where no such copy is written back, the refunds of a task never
exceed the quota it was submitted with (`refunds_le_quota`).
-/

namespace LmmApi.AsyncTask

open Attribution Option List

/-- What the refunds of a task credit to the source of its quota along a run. -/
def credited (id : ℕ) : World → List Event → ℤ :=
  decrease Event.step (Event.IsApply id) fun w => -w.fundOf id

/-- No recalculation raises the quota of the task. -/
def NeverRaises (id : ℕ) : Event → World → Prop
  | .adjust p i _ actualQuota, w => i = id → ∀ c, w.copies p id = some c →
      actualQuota ≤ c.row.task.quota
  | _, _ => True

/-- No answer is handled with a copy from before the refund while the row has the status of the
copy. -/
def KeepsRefund (id : ℕ) : Event → World → Prop
  | .answer p i _ _, w => i = id → ∀ c row, w.copies p id = some c → c.phase = .holding →
      w.rows.get? id = some row → row.status = c.row.status →
      row.task.refundStatus = .completed → c.row.task.refundStatus = .completed
  | _, _ => True

/-! ## The invariant -/

/-- Neither the quota nor the amount to refund is above `q`. -/
def Row.Within (q : ℤ) (row : Row) : Prop := row.task.quota ≤ q ∧ row.task.refundQuota ≤ q

/-- **The invariant**: after refunds of `d`, the row still has its mark unless nothing was refunded,
and no copy says more than the quota `q`. -/
structure Bounded (q d : ℤ) (v : View) : Prop where
  row : ∃ row, v.row = some row ∧ row.Within q ∧ (row.task.refundStatus = .completed ∨ d ≤ 0)
  copies : ∀ p c, v.copies p = some c → c.row.Within q
  le : d ≤ q

variable {id : ℕ} {q d k : ℤ} {v v' : View} {w : World} {e : Event}

variable {row : Row} {p : ℕ}

/-- A copy changes within the bound. -/
theorem Bounded.set {c : Copy} (h : Bounded q d v) (hc : c.row.Within q) :
    Bounded q d (v.set p (some c)) where
  row := h.row
  copies := View.forall_copies_set (fun _ heq => some.inj heq ▸ hc) h.copies
  le := h.le

theorem Bounded.drop (h : Bounded q d v) : Bounded q d (v.set p none) where
  row := h.row
  copies := View.forall_copies_set (by simp) h.copies
  le := h.le

/-- The row changes within the bound and keeps its mark. -/
theorem Bounded.setRow {row row' : Row} (h : Bounded q d v) (hr : v.row = some row)
    (hwit : row'.Within q)
    (hmk : row.task.refundStatus = .completed → row'.task.refundStatus = .completed) :
    Bounded q d { v with row := some row' } where
  row := by
    obtain ⟨_, hsto, -, hdone⟩ := h.row
    obtain rfl := mem_unique hr hsto
    exact ⟨row', rfl, hwit, hdone.imp_left hmk⟩
  copies := h.copies
  le := h.le

theorem Row.Within.refunded {quota : ℤ} (h : row.Within q) (hq : 0 ≤ q)
    (hquo : quota ≤ q) : (row.refunded quota).Within q := by
  unfold Row.refunded
  split
  · exact h
  · exact ⟨hq, hquo⟩

theorem Row.Within.owed_le (h : row.Within q) : row.task.owed ≤ q := by
  unfold Task.owed
  split
  · exact h.1
  · exact h.2

theorem Decision.Sound.within {dec : Decision} (hd : dec.Sound row) (h : row.Within q)
    (hq : 0 ≤ q) : dec.row.Within q := by
  refine ⟨?_, hd.refundQuota ▸ h.2⟩
  rcases hd.quota with hs | hz
  · exact hs ▸ h.1
  · exact hz ▸ hq

/-- What a step must meet so that the refunds of the task stay within its quota. -/
def RefundsOnce (id : ℕ) (e : Event) (w : World) : Prop := NeverRaises id e w ∧ KeepsRefund id e w

/-- A step keeps the invariant. -/
theorem Bounded.step (hq : 0 ≤ q) (h : Bounded q d (w.view id)) (hok : RefundsOnce id e w)
    (hchg : Change id (w.view id) e k v') : Bounded q (d + k) v' := by
  obtain ⟨row, hr, hwit, hdone⟩ := h.row
  cases hchg with
  | same => rwa [add_zero]
  | inserted _ _ habs => simp [hr] at habs
  | read _ _ _ _ _ hsto =>
    obtain rfl := mem_unique hr hsto
    rw [add_zero]
    exact h.set hwit
  | crashed =>
    rw [add_zero]
    exact h.drop
  | kept p _ _ c _ _ hh _ hdeci =>
    rw [add_zero]
    exact h.set ((decision_sound hdeci).within (h.copies p c hh) hq)
  | updated p _ _ c _ _ hh hhol hdeci hsto hgua =>
    obtain rfl := mem_unique hr hsto
    rw [add_zero]
    have hsnd := decision_sound hdeci
    have hdec := hsnd.within (h.copies p c hh) hq
    refine Bounded.set (h.setRow hr hdec fun hmk => ?_) hdec
    -- The guard lets the update through, so the copy is one from after the refund.
    exact hsnd.refundStatus.trans (hok.2 rfl c row hh hhol hr (hsnd.guard _ hgua) hmk)
  | rested _ p c hh | resumed _ p c hh =>
    rw [add_zero]
    exact h.set (h.copies p c hh)
  | intended _ p c _ hh _ hsto hfr =>
    obtain rfl := mem_unique hr hsto
    rw [add_zero]
    refine Bounded.set (h.setRow hr ⟨hwit.1, hwit.owed_le⟩ fun hmk => ?_)
      (h.copies p c hh)
    simp [hfr] at hmk
  | learned _ p c _ hh _ hsto =>
    obtain rfl := mem_unique hr hsto
    rw [add_zero]
    exact h.set ((h.copies p c hh).refunded hq hwit.2)
  | refunded _ p c _ k hh _ hsto hpen _ hcr =>
    obtain rfl := mem_unique hr hsto
    -- The row was not marked, so this is the first refund.
    have hfst : d ≤ 0 := hdone.resolve_left (by simp [hpen])
    refine Bounded.set ⟨⟨row.completed, rfl, ⟨hq, hwit.2⟩, .inl rfl⟩, h.copies, ?_⟩
      ((h.copies p c hh).refunded hq hwit.2)
    calc d + k ≤ 0 + row.task.refundQuota := add_le_add hfst hcr
      _ = row.task.refundQuota := zero_add _
      _ ≤ q := hwit.2
  | adjusted p _ c _ hh =>
    rw [add_zero]
    have hcopy := h.copies p c hh
    exact h.set ⟨(hok.1 rfl c hh).trans hcopy.1, hcopy.2⟩
  | requoted _ p c _ hh hsto =>
    obtain rfl := mem_unique hr hsto
    rw [add_zero]
    have hcopy := h.copies p c hh
    exact Bounded.set (h.setRow hr ⟨hcopy.1, hwit.2⟩ fun hmk => hmk) hcopy

/-! ## Copies are copies of rows -/

/-- A task that is not there has no copies. -/
def Rooted (v : View) : Prop := v.row = none → ∀ p, v.copies p = none

theorem Rooted.set {c : Option Copy} (h : Rooted v) (hc : v.row = none → c = none) :
    Rooted (v.set p c) := by
  intro hr r
  simp only [View.set]
  split
  · exact hc hr
  · exact h hr r

theorem Rooted.of_row (hr : v.row = some row) : Rooted v := by
  intro hn
  simp [hr] at hn

/-- A copy that is held is one of a row that is there. -/
theorem Rooted.absurd {c : Copy} (h : Rooted v) (hh : v.copies p = some c)
    {c' : Option Copy} (hr : v.row = none) : c' = none := by
  simp [h hr p] at hh

theorem Rooted.step (h : Rooted v) (hchg : Change id v e k v') : Rooted v' := by
  cases hchg with
  | same => exact h
  | inserted => exact .of_row rfl
  | read _ _ _ _ _ hsto => exact .of_row (v := v.set _ _) hsto
  | crashed => exact h.set fun _ => rfl
  | kept _ _ _ _ _ _ hh | rested _ _ _ hh | resumed _ _ _ hh | learned _ _ _ _ hh
  | adjusted _ _ _ _ hh => exact h.set (h.absurd hh)
  | updated | intended | refunded | requoted => exact .of_row (v := View.set _ _ _) rfl

theorem rooted_of_run (billing : Subscription.Db) (events : List Event) (id : ℕ) :
    Rooted (((World.start billing).run events).view id) :=
  run_rule_any (P := fun w : World => Rooted (w.view id)) (fun w e h => h.step (e.change w id)) (fun _ _ => rfl)
    events

/-! ## Runs -/

/-- The refunds of a task that has just been inserted. -/
theorem credited_le_quota {w : World} (hroo : Rooted (w.view w.rows.next)) {sub : Submission}
    {now : ℤ} {after : List Event}
    (hok : Along Event.step (RefundsOnce w.rows.next) ((Event.insert sub now).step w) after) :
    credited w.rows.next ((Event.insert sub now).step w) after ≤ sub.quota := by
  have hsta : Bounded sub.quota 0 (((Event.insert sub now).step w).view w.rows.next) := by
    have hr : (((Event.insert sub now).step w).view w.rows.next).row = some (sub.row now) :=
      w.rows.get?_insert_self _
    refine ⟨⟨sub.row now, hr, ⟨le_rfl, Int.natCast_nonneg _⟩, .inr le_rfl⟩, fun p c hc => ?_,
      Int.natCast_nonneg _⟩
    have hn := hroo w.rows.get?_next p
    exact absurd (hn.symm.trans hc) (by simp)
  unfold credited
  have hend := decrease_rule_along (κ := Unit) (μ := fun _ w' => -w'.fundOf w.rows.next)
    (P := fun w' d => Bounded sub.quota (d ()) (w'.view w.rows.next)) (d := fun _ => 0)
    (fun w' d e hok h => h.step (Int.natCast_nonneg _) hok (e.change w' _)) hsta hok
  exact (zero_add _).symm.le.trans hend.le

/-- **The refunds of a task stay within its quota.** A task is submitted at any point of any run,
and from then on no recalculation raises its quota and no copy from before its refund is written
back: then the refunds credit at most the quota that it was submitted with. -/
theorem refunds_le_quota (billing : Subscription.Db) (before after : List Event) (sub : Submission)
    (now : ℤ)
    (hok : Along Event.step (RefundsOnce ((World.start billing).run before).rows.next)
      ((Event.insert sub now).step ((World.start billing).run before)) after) :
    credited ((World.start billing).run before).rows.next
      ((Event.insert sub now).step ((World.start billing).run before)) after ≤ sub.quota :=
  credited_le_quota (rooted_of_run billing before _) hok

/-- A user with a wallet. -/
def walletDb : Subscription.Db where
  users := Table.empty.insert ⟨100, 1, userStatusEnabled, false⟩
  tokens := .empty
  subscriptions := .empty
  records := .empty

/-- A task that is paid with 40 from the wallet. -/
def walletTask : Submission where
  userId := 1
  quota := 40
  billingSource := .wallet
  subscriptionId := 0
  tokenId := 0
  taskId := "task_a"
  submitTime := 1800000000
  data := ""

/-- A day after the task was submitted. -/
def dayAfter (seconds : ℤ) : PollEnv := { now := 1800000000 + 86400 + seconds }

/-- The sweep by the process `p` times the task out and refunds it. -/
def timeoutAndRefund (p : ℕ) (seconds : ℤ) : List Event :=
  [.read p 1 (dayAfter seconds) .timeoutSweep, .answer p 1 (dayAfter seconds) .nothing,
    .prepare p 1 (dayAfter seconds), .apply p 1 (dayAfter seconds)]

/-- The sweep of a task that has no refund yet keeps the mark. -/
theorem along_timeoutAndRefund {ok : Event → World → Prop} {seconds : ℤ}
    (hfr : (w.rows.get? 1).map (·.task.refundStatus) = some .none)
    (hok : ∀ e ∈ timeoutAndRefund p seconds, ∀ w', KeepsRefund 1 e w' → ok e w') :
    Along Event.step ok w (timeoutAndRefund p seconds) := by
  have hread : ((Event.read p 1 (dayAfter seconds) .timeoutSweep).step w).rows = w.rows := by
    simp only [Event.step, World.read]
    split
    · rfl
    · split <;> rfl
  refine ⟨hok _ (by simp [timeoutAndRefund]) _ trivial,
    hok _ (by simp [timeoutAndRefund]) _ fun _ c row _ _ hr _ hmk => ?_,
    hok _ (by simp [timeoutAndRefund]) _ trivial, hok _ (by simp [timeoutAndRefund]) _ trivial,
    trivial⟩
  rw [hread] at hr
  simp [hr, hmk] at hfr

theorem refunds_le_quota_timeout :
    credited 1 ((Event.insert walletTask 1800000000).step (.start walletDb))
      (timeoutAndRefund 1 1) = 40 ∧
    credited 1 ((Event.insert walletTask 1800000000).step (.start walletDb))
      (timeoutAndRefund 1 1) ≤ walletTask.quota := by
  refine ⟨by decide +kernel, refunds_le_quota walletDb [] _ walletTask 1800000000 ?_⟩
  refine along_timeoutAndRefund (by decide +kernel) fun e he w h => ⟨?_, h⟩
  simp only [timeoutAndRefund, mem_cons, not_mem_nil, or_false] at he
  rcases he with rfl | rfl | rfl | rfl <;> trivial

/-- **A task can be refunded twice**: its user asks for it just after it has timed out, and the
answer that the upstream is still working on it comes after the refund. The row is written back
without the mark of the refund, and the next sweep refunds it again. -/
theorem task_refunded_twice :
    ∃ after, Along Event.step (NeverRaises 1)
        ((Event.insert walletTask 1800000000).step (.start walletDb)) after ∧
      ¬credited 1 ((Event.insert walletTask 1800000000).step (.start walletDb)) after ≤
        walletTask.quota := by
  refine ⟨[.read 1 1 (dayAfter 1) .timeoutSweep, .answer 1 1 (dayAfter 1) .nothing,
    .read 2 1 (dayAfter 1) .realtimeFetch, .prepare 1 1 (dayAfter 1), .apply 1 1 (dayAfter 1),
    .answer 2 1 (dayAfter 2) (.realtime { status := "IN_PROGRESS", progress := "50%" })] ++
    timeoutAndRefund 3 60, ?_, by decide +kernel⟩
  simp [Along, NeverRaises, timeoutAndRefund]

end LmmApi.AsyncTask
