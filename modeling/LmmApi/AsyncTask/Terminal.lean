import LmmApi.AsyncTask.RefundOnce

/-!
# Finished tasks stay finished

A task that has failed is refunded, so a task that has failed or succeeded must keep its status.
`failTaskForPolling` leaves finished tasks alone, but `tryRealtimeFetch` stores whatever status the
upstream reports, over a final one too: `finished_task_reopened`. A poller can do so as well, when
it handles a row again that it has finished in memory.

Where no finished copy gets another status, final statuses are final and no successful task is
refunded (`terminal_final`).
-/

namespace LmmApi.AsyncTask

open Attribution Option

/-- The answer leaves the status of a finished copy. Only a fetch of a single task may handle one.
-/
def Answer.Confirms (row : Row) : Answer → Prop
  | .realtime info => info.newStatus row = row.status
  | _ => False

/-- No answer is handled with a finished copy unless it confirms its status. -/
def KeepsFinal : Event → World → Prop
  | .answer p id _ reply, w => ∀ c, w.copies p id = some c → c.phase = .holding →
      c.row.status.Terminal → reply.Confirms c.row
  | _, _ => True

/-- A refund is on its way, or has been made. -/
def Row.Refunding (row : Row) : Prop := row.task.refundStatus ≠ .none

/-- **The invariant**: only failed tasks are refunded, in the table and in memory, and who is about
to refund a task has a failed copy of a failed row. -/
structure RefundsFailed (v : View) : Prop where
  row : ∀ row, v.row = some row → row.Refunding → row.status = .failure
  copies : ∀ p c, v.copies p = some c → c.row.Refunding → c.row.status = .failure
  next : ∀ p c, v.copies p = some c → c.phase = .preparing ∨ c.phase = .applying →
    c.row.status = .failure ∧ ∃ row, v.row = some row ∧ row.status = .failure

variable {id : ℕ} {v v' : View} {w : World} {e : Event} {k : ℤ}

variable {d : Decision} {reply : Answer} {env : PollEnv} {p : ℕ}

/-- A copy changes and is in order. -/
theorem RefundsFailed.set {c : Copy} (h : RefundsFailed v)
    (hcopy : c.row.Refunding → c.row.status = .failure)
    (hn : c.phase = .preparing ∨ c.phase = .applying →
      c.row.status = .failure ∧ ∃ row, v.row = some row ∧ row.status = .failure) :
    RefundsFailed (v.set p (some c)) where
  row := h.row
  copies := View.forall_copies_set (fun _ heq => some.inj heq ▸ hcopy) h.copies
  next := View.forall_copies_set (fun _ heq => some.inj heq ▸ hn) h.next

theorem RefundsFailed.drop (h : RefundsFailed v) : RefundsFailed (v.set p none) where
  row := h.row
  copies := View.forall_copies_set (by simp) h.copies
  next := View.forall_copies_set (by simp) h.next

/-- The row changes, keeps its status if it has failed, and is in order. -/
theorem RefundsFailed.setRow {row row' : Row} (h : RefundsFailed v) (hr : v.row = some row)
    (hsta : row.status = .failure → row'.status = .failure)
    (href : row'.Refunding → row'.status = .failure) :
    RefundsFailed { v with row := some row' } where
  row stored hsto := by
    cases hsto
    exact href
  copies := h.copies
  next p c hc hph := by
    obtain ⟨hfl, _, hsto, hst⟩ := h.next p c hc hph
    obtain rfl := mem_unique hr hsto
    exact ⟨hfl, row', rfl, hsta hst⟩

/-- A phase that is not one of a refund. -/
theorem Reader.rest_not_refunding {reader : Reader}
    (h : reader.rest = .preparing ∨ reader.rest = .applying) : False :=
  h.elim (rest_ne_preparing _) (rest_ne_applying _)

theorem Row.refunded_status (row : Row) (quota : ℤ) : (row.refunded quota).status = row.status := by
  unfold Row.refunded
  split <;> rfl

/-- A copy that was finished before an answer has the same status after it. -/
theorem KeepsFinal.status_eq {c : Copy}
    (hok : KeepsFinal (.answer p id env reply) w) (hh : w.copies p id = some c)
    (hhol : c.phase = .holding) (hdec : decision env c.reader reply c.row = some d)
    (hfin : c.row.status.Terminal) : c.reader = .realtimeFetch ∧ d.row.status = c.row.status := by
  have hcon := hok c hh hhol hfin
  cases reply with
  | realtime =>
    cases hrea : c.reader with
    | realtimeFetch =>
      rw [hrea, decision] at hdec
      cases hdec
      exact ⟨rfl, hcon⟩
    | _ => simp [decision, hrea] at hdec
  | _ => exact hcon.elim

/-- A fetch of a single task never goes on to a refund. -/
theorem decision_realtime {row : Row}
    (h : decision env .realtimeFetch reply row = some d) : d.won = .done ∧ d.lost = .done := by
  cases reply with
  | realtime =>
    rw [decision] at h
    cases h
    exact ⟨rfl, rfl⟩
  | _ => simp [decision] at h

/-- The phase that follows an answer is one of a refund only when the copy has just failed, and with
no update only when it had failed before. -/
theorem Decision.Sound.phase_failed {row : Row} {phase : Phase} (hd : d.Sound row)
    (hgoes : (d.guard = none ∧ phase = d.won) ∨ phase = d.lost)
    (hph : phase = .preparing ∨ phase = .applying) : row.status = .failure := by
  rcases hgoes with ⟨hgua, rfl⟩ | rfl
  · rcases hph with hph | hph
    · exact hd.kept_failed hgua hph
    · exact absurd hph hd.won_phase
  · rcases hph with hph | hph
    · exact hd.lost_failed hph
    · exact absurd hph hd.lost_phase

/-- A copy that is being refunded keeps its status under an answer. -/
theorem RefundsFailed.decided {c : Copy}
    (h : RefundsFailed (w.view id)) (hok : KeepsFinal (.answer p id env reply) w)
    (hh : w.copies p id = some c) (hhol : c.phase = .holding)
    (hdec : decision env c.reader reply c.row = some d) (href : d.row.Refunding) :
    d.row.status = .failure := by
  have hfl : c.row.status = .failure := by
    refine h.copies p c hh fun hn => href ?_
    rw [(decision_sound hdec).refundStatus, hn]
  exact (hok.status_eq hh hhol hdec (.inl hfl)).2.trans hfl

/-- A step keeps the invariant. -/
theorem RefundsFailed.step (h : RefundsFailed (w.view id)) (hok : KeepsFinal e w)
    (hchg : Change id (w.view id) e k v') : RefundsFailed v' := by
  cases hchg with
  | same => exact h
  | inserted _ _ habs =>
    refine ⟨fun row hr href => ?_, h.copies, fun p c hc hph => ?_⟩
    · cases hr
      exact absurd rfl href
    · obtain ⟨-, row, hr, -⟩ := h.next p c hc hph
      simp [habs] at hr
  | read _ _ _ row _ hsto hrefu =>
    refine h.set (h.row row hsto) fun hph => ?_
    rcases hrefu with rfl | ⟨hfl, -⟩
    · simp at hph
    · exact ⟨hfl, row, hsto, hfl⟩
  | crashed => exact h.drop
  | kept p env reply c d phase hh hhol hdec hgoes =>
    refine h.set (h.decided hok hh hhol hdec) fun hph => ?_
    -- The copy had failed before, so it is one of a fetch, which makes no refund.
    have hfl := (decision_sound hdec).phase_failed hgoes hph
    obtain ⟨hrea, -⟩ := hok.status_eq hh hhol hdec (.inl hfl)
    rw [hrea] at hdec
    obtain ⟨hwon, hlost⟩ := decision_realtime hdec
    rcases hgoes with ⟨-, rfl⟩ | rfl <;> simp_all
  | updated _ _ _ _ d _ hh hhol hdec hsto hgua =>
    have hsnd := decision_sound hdec
    have href : d.row.Refunding → d.row.status = .failure := h.decided hok hh hhol hdec
    refine RefundsFailed.set (h.setRow hsto (fun hfl => ?_) href) href fun hph => ?_
    · have hcopy := (hsnd.guard _ hgua).symm.trans hfl
      exact (hok.status_eq hh hhol hdec (.inl hcopy)).2.trans hcopy
    · have hfl := hsnd.won_failed (hph.resolve_right hsnd.won_phase)
      exact ⟨hfl, _, rfl, hfl⟩
  | rested _ p c hh => exact h.set (h.copies p c hh) fun hph => (Reader.rest_not_refunding hph).elim
  | resumed _ p c hh hpre => exact h.set (h.copies p c hh) fun _ => h.next p c hh (.inl hpre)
  | intended _ p c _ hh hpre hsto =>
    obtain ⟨hfl, stored, hr, hst⟩ := h.next p c hh (.inl hpre)
    obtain rfl := mem_unique hsto hr
    exact RefundsFailed.set (h.setRow hsto (fun hst => hst) fun _ => hst) (h.copies p c hh)
      fun _ => ⟨hfl, _, rfl, hst⟩
  | learned _ p c _ hh href =>
    obtain ⟨hfl, -⟩ := h.next p c hh href
    exact h.set (fun _ => (Row.refunded_status _ _).trans hfl)
      fun hph => (Reader.rest_not_refunding hph).elim
  | refunded _ p c _ _ hh happ hsto =>
    obtain ⟨hfl, _, hr, hst⟩ := h.next p c hh (.inr happ)
    obtain rfl := mem_unique hsto hr
    exact RefundsFailed.set (h.setRow hsto (fun hst => hst) fun _ => hst)
      (fun _ => (Row.refunded_status _ _).trans hfl)
      fun hph => (Reader.rest_not_refunding hph).elim
  | adjusted p _ c _ hh => exact h.set (h.copies p c hh) (by simp)
  | requoted _ p c row hh hsto =>
    exact RefundsFailed.set (h.setRow hsto (fun hst => hst) (h.row row hsto))
      (h.copies p c hh) fun hph => (Reader.rest_not_refunding hph).elim

/-! ## Final statuses -/

/-- The row is there with this status. -/
def HasStatus (status : TaskStatus) (v : View) : Prop := ∃ row, v.row = some row ∧ row.status = status

/-- A step keeps a final status. -/
theorem HasStatus.step {status : TaskStatus} (h : HasStatus status (w.view id))
    (hfin : status.Terminal) (hok : KeepsFinal e w) (hchg : Change id (w.view id) e k v') :
    HasStatus status v' := by
  obtain ⟨row, hr, rfl⟩ := h
  cases hchg with
  | inserted _ _ habs => simp [hr] at habs
  | updated _ _ _ c _ _ hh hhol hdec hsto hgua =>
    obtain rfl := mem_unique hr hsto
    have hcopy : row.status = c.row.status := (decision_sound hdec).guard _ hgua
    have hs := (hok.status_eq hh hhol hdec (hcopy ▸ hfin)).2
    exact ⟨_, rfl, hs.trans hcopy.symm⟩
  | intended _ _ _ _ _ _ hsto | refunded _ _ _ _ _ _ _ hsto | requoted _ _ _ _ _ hsto =>
    obtain rfl := mem_unique hr hsto
    exact ⟨_, rfl, rfl⟩
  | _ => exact ⟨row, hr, rfl⟩

/-- **Final statuses are final**, and a successful task is never refunded: in every run in which a
finished copy gets no other status, a task that has failed or succeeded at some point has the same
status ever after, and at no point is a refund of a successful task completed. -/
theorem terminal_final (billing : Subscription.Db) (before after : List Event)
    (hbefore : Along Event.step KeepsFinal (.start billing) before)
    (hafter : Along Event.step KeepsFinal ((World.start billing).run before) after) (id : ℕ)
    (row : Row) (hrow : ((World.start billing).run before).rows.get? id = some row) :
    (row.status.Terminal → ∃ row',
      (((World.start billing).run before).run after).rows.get? id = some row' ∧
        row'.status = row.status) ∧
      ¬(row.status = .success ∧ row.task.refundStatus = .completed) := by
  constructor
  · intro hfinal
    exact run_rule (P := fun w : World => HasStatus row.status (w.view id))
      (fun w e hok h => h.step hfinal hok (e.change w id)) ⟨row, hrow, rfl⟩ hafter
  · rintro ⟨hsuccess, hcompleted⟩
    have hstart : RefundsFailed ((World.start billing).view id) :=
      ⟨(fun row hrow => by cases hrow), (fun p c hc => by cases hc), (fun p c hc => by cases hc)⟩
    have hinv := run_rule (P := fun w : World => RefundsFailed (w.view id))
      (fun w e hok h => h.step hok (e.change w id)) hstart hbefore
    have hfailed := hinv.row row hrow (by simp [Row.Refunding, hcompleted])
    simp [hsuccess] at hfailed

/-- The task of the wallet times out and is refunded. -/
def refundedRun : World := (World.start walletDb).run
  (.insert walletTask 1800000000 :: timeoutAndRefund 1 1)

theorem refundedRun_row : ∃ row ∈ refundedRun.rows.get? 1, row.status = .failure := by
  decide +kernel

/-- What the upstream says to a fetch of the task after its refund. -/
def lateFetch (status : String) : List Event :=
  [.read 2 1 (dayAfter 2) .realtimeFetch, .answer 2 1 (dayAfter 2) (.realtime { status })]

/-- A fetch of the failed task that confirms its status. -/
theorem terminal_final_confirmed :
    ∃ row', (refundedRun.run (lateFetch "FAILURE")).rows.get? 1 = some row' ∧
      row'.status = .failure := by
  obtain ⟨row, hrow, hfailed⟩ := refundedRun_row
  have hbefore : Along Event.step KeepsFinal (.start walletDb)
      (.insert walletTask 1800000000 :: timeoutAndRefund 1 1) :=
    ⟨trivial, trivial, fun c hc _ => (by decide +kernel : ∀ c ∈ (_ : Option Copy),
      ¬c.row.status.Terminal) c hc, trivial, trivial, trivial⟩
  have hafter : Along Event.step KeepsFinal refundedRun (lateFetch "FAILURE") :=
    ⟨trivial, fun c hc _ _ => (by decide +kernel : ∀ c ∈ (_ : Option Copy),
      TaskInfo.newStatus { status := "FAILURE" } c.row = c.row.status) c hc, trivial⟩
  have hsame := (terminal_final walletDb _ _ hbefore hafter 1 row hrow).1 (.inl hfailed)
  rwa [hfailed] at hsame

/-- **A finished task can be reopened**, and a refunded one succeed: the task has failed and was
refunded, and a fetch finds that the upstream has finished it after all. -/
theorem finished_task_reopened :
    (∃ row, refundedRun.rows.get? 1 = some row ∧ row.status = .failure) ∧
      ∃ row', (refundedRun.run (lateFetch "SUCCESS")).rows.get? 1 = some row' ∧
        row'.status = .success ∧ row'.task.refundStatus = .completed := by
  have hreopened : ∃ row' ∈ (refundedRun.run (lateFetch "SUCCESS")).rows.get? 1,
      row'.status = .success ∧ row'.task.refundStatus = .completed := by
    decide +kernel
  exact ⟨refundedRun_row, hreopened⟩

end LmmApi.AsyncTask
