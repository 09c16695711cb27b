import LmmApi.AsyncTask.Polling
import LmmApi.Lib.Attribution

/-!
# What a step does to a task

`View` is all that the processes have of one task: its row and the copies of it in memory. A step
changes the view of every task in one of the ways that `Change` lists, with the facts it has checked
and with the amount that it credits to the source of the task's quota; only
`ApplyPreparedTaskRefund` credits anything. `Event.change` is the inversion of all steps, and the
invariants of the later modules are derived from it.
-/

namespace LmmApi.AsyncTask

open Guarded Subscription Option Table World

/-- The world after a run. -/
def World.run : World → List Event → World := Attribution.run Event.step

/-- The row of a task and the copies of it. -/
structure View where
  row : Option Row
  copies : ℕ → Option Copy

def World.view (w : World) (id : ℕ) : View := ⟨w.rows.get? id, fun p => w.copies p id⟩

def View.set (v : View) (p : ℕ) (c : Option Copy) : View :=
  { v with copies := fun q => if q = p then c else v.copies q }

variable {p id : ℕ} {reader : Reader} {reply : Answer} {quota : ℤ} {s s' : Store} {α : Type}
  {tx : Store → Except Failure (α × Store)} {a : α} {w' : World}

theorem View.forall_copies_set {v : View} {c : Option Copy} {P : Copy → Prop}
    (hc : ∀ c', c = some c' → P c') (h : ∀ q c', v.copies q = some c' → P c') (q : ℕ) (c' : Copy)
    (hq : (v.set p c).copies q = some c') : P c' := by
  unfold View.set at hq
  dsimp only at hq
  split at hq
  · exact hc c' hq
  · exact h q c' hq

@[simp] theorem World.view_setCopy_self (w : World) (p id : ℕ) (c : Option Copy) :
    (w.setCopy p id c).view id = (w.view id).set p c := by
  simp [view, setCopy, View.set]

theorem World.view_setCopy_of_ne (w : World) {i : ℕ} (c : Option Copy) (h : i ≠ id) :
    (w.setCopy p id c).view i = w.view i := by
  simp [view, setCopy, h]

/-! ## Facts about decisions -/

/-- What every decision keeps of the billing columns, and when it leads to a refund. -/
structure Decision.Sound (row : Row) (d : Decision) : Prop where
  guard : ∀ status, d.guard = some status → status = row.status
  refundStatus : d.row.task.refundStatus = row.task.refundStatus
  refundQuota : d.row.task.refundQuota = row.task.refundQuota
  quota : d.row.task.quota = row.task.quota ∨ d.row.task.quota = 0
  won_failed : d.won = .preparing → d.row.status = .failure
  lost_failed : d.lost = .preparing → row.status = .failure
  kept_failed : d.guard = none → d.won = .preparing → row.status = .failure
  won_phase : d.won ≠ .applying
  lost_phase : d.lost ≠ .applying

theorem beginRefund_ne_applying (reader : Reader) (row : Row) :
    beginRefund reader row ≠ .applying := by
  unfold beginRefund
  cases reader <;> split_ifs <;> simp [Reader.rest]

theorem refundNonzero_ne_applying (reader : Reader) (row : Row) :
    refundNonzero reader row ≠ .applying := by
  unfold refundNonzero
  split_ifs
  · exact beginRefund_ne_applying reader row
  · cases reader <;> simp [Reader.rest]

theorem rest_ne_preparing (reader : Reader) : reader.rest ≠ .preparing := by
  cases reader <;> simp [Reader.rest]

theorem rest_ne_applying (reader : Reader) : reader.rest ≠ .applying := by
  cases reader <;> simp [Reader.rest]

theorem timeOut_sound (env : PollEnv) (row : Row) : (timeOut env row).Sound row where
  guard status h := (some.inj h).symm
  refundStatus := by
    simp only [timeOut, Row.timedOutTask]
    split <;> rfl
  refundQuota := by
    simp only [timeOut, Row.timedOutTask]
    split <;> rfl
  quota := by
    simp only [timeOut, Row.timedOutTask]
    split
    · exact .inr rfl
    · exact .inl rfl
  won_failed _ := rfl
  lost_failed h := by simp [timeOut] at h
  kept_failed h := by simp [timeOut] at h
  won_phase := by
    simp only [timeOut]
    split
    · exact beginRefund_ne_applying _ _
    · simp
  lost_phase := by simp [timeOut]

variable {f : Copy → World → World} {d : Decision} {row : Row} {env : PollEnv} {phase : Phase}
  {e : Event}

theorem failTaskForPolling_sound {reason : String}
    (h : failTaskForPolling env reader reason row = some d) : d.Sound row := by
  unfold failTaskForPolling at h
  split at h
  · cases h
  · cases h
    exact {
      guard := fun status h => (some.inj h).symm
      refundStatus := rfl
      refundQuota := rfl
      quota := .inl rfl
      won_failed := fun _ => rfl
      lost_failed := fun h => absurd h (rest_ne_preparing _)
      kept_failed := fun h => by cases h
      won_phase := refundNonzero_ne_applying _ _
      lost_phase := rest_ne_applying _ }

theorem failSunoTask_sound (channelId : ℕ) (row : Row) : (failSunoTask channelId row).Sound row where
  guard status h := (some.inj h).symm
  refundStatus := rfl
  refundQuota := rfl
  quota := .inl rfl
  won_failed _ := rfl
  lost_failed h := by cases h
  kept_failed h := by cases h
  won_phase := refundNonzero_ne_applying _ _
  lost_phase h := by cases h

theorem updateSunoTask_sound {item : SunoItem}
    (h : updateSunoTask item row = some d) : d.Sound row := by
  unfold updateSunoTask at h
  split at h
  · cases h
    refine ⟨fun status h => (some.inj h).symm, rfl, rfl, .inl rfl, ?_,
      (fun h => by cases h), (fun h => by cases h), ?_, (fun h => by cases h)⟩
    · dsimp only
      split
      · rename_i hfai
        exact fun _ => hfai.1
      · exact fun h => by cases h
    · dsimp only
      split
      · exact refundNonzero_ne_applying _ _
      · simp
  · cases h

theorem readVideoStatus_task {info : TaskInfo} {row row' : Row}
    (h : readVideoStatus env info row = some row') : row'.task = row.task := by
  unfold readVideoStatus at h
  split at h <;> first | (obtain rfl := some.inj h; rfl) | cases h

@[simp] theorem overrideProgress_task (info : TaskInfo) (row : Row) :
    (info.overrideProgress row).task = row.task := by
  unfold TaskInfo.overrideProgress
  split_ifs <;> rfl

theorem billVideoTask_preparing (h : billVideoTask row = .preparing) : row.status = .failure := by
  unfold billVideoTask at h
  split_ifs at h
  · assumption

theorem billVideoTask_ne_applying (row : Row) : billVideoTask row ≠ .applying := by
  unfold billVideoTask
  split_ifs
  · exact refundNonzero_ne_applying _ _
  · simp
  · simp

theorem updateVideoSingleTask_sound (env : PollEnv) (info : TaskInfo) (data : String) (row : Row) :
    (updateVideoSingleTask env info data row).Sound row := by
  unfold updateVideoSingleTask
  dsimp only
  split
  · exact ⟨(fun _ h => by cases h), rfl, rfl, .inl rfl, (fun h => by cases h),
      (fun h => by cases h), (fun _ h => by cases h), by simp, by simp⟩
  · rename_i known hkn
    have htk : (info.overrideProgress known).task = row.task := by
      rw [overrideProgress_task, readVideoStatus_task hkn]
    split
    · exact ⟨(fun status h => (some.inj h).symm), by rw [htk], by rw [htk],
        .inl (by rw [htk]), billVideoTask_preparing, (fun h => by cases h), (fun h => by cases h),
        billVideoTask_ne_applying _, by simp⟩
    · rename_i hs
      -- A task that fails here had failed before.
      have hfl : billVideoTask (info.overrideProgress known) = .preparing →
          row.status = .failure := by
        intro h
        have hst := billVideoTask_preparing h
        by_contra hne
        exact hs ⟨.inl hst, fun heq => hne (heq.trans hst)⟩
      refine ⟨fun status h => ?_, by rw [htk], by rw [htk], .inl (by rw [htk]),
        billVideoTask_preparing, hfl, fun _ => hfl, billVideoTask_ne_applying _,
        billVideoTask_ne_applying _⟩
      dsimp only at h
      split_ifs at h
      exact (some.inj h).symm

theorem tryRealtimeFetch_sound (env : PollEnv) (info : TaskInfo) (row : Row) :
    (tryRealtimeFetch env info row).Sound row := by
  refine ⟨fun status h => ?_, rfl, rfl, .inl rfl, (fun h => by cases h), (fun h => by cases h),
    (fun _ h => by cases h), by simp [tryRealtimeFetch], by simp [tryRealtimeFetch]⟩
  dsimp only [tryRealtimeFetch] at h
  split_ifs at h <;> exact (some.inj h).symm

/-- Every decision is guarded by the status of the copy and keeps what was refunded. -/
theorem decision_sound (h : decision env reader reply row = some d) : d.Sound row := by
  unfold decision at h
  split at h
  · exact some.inj h ▸ timeOut_sound env row
  · exact failTaskForPolling_sound h
  · exact failTaskForPolling_sound h
  · exact some.inj h ▸ failSunoTask_sound _ row
  · exact failTaskForPolling_sound h
  · exact updateSunoTask_sound h
  · cases h
    exact ⟨(fun _ h => by cases h), rfl, rfl, .inl rfl, (fun h => by cases h),
      (fun h => by cases h), (fun _ h => by cases h), by simp, by simp⟩
  · exact some.inj h ▸ updateVideoSingleTask_sound env _ _ row
  · exact some.inj h ▸ tryRealtimeFetch_sound env _ row
  · cases h

/-! ## The refund transactions -/

/-- What `PrepareTaskRefundIntent` answers and stores for the task it finds. -/
inductive Prepared (id : ℕ) (s : Store) (task : Task) : ℤ → Bool → Store → Prop
  | completed (done : task.refundStatus = .completed) : Prepared id s task task.refundQuota false s
  | pending (pending : task.refundStatus = .pending) (pos : 0 < task.refundQuota) :
      Prepared id s task task.refundQuota true s
  | nothing : Prepared id s task 0 false s
  | intended (fresh : task.refundStatus = .none) (pos : 0 < task.owed) :
      Prepared id s task task.owed true { s with tasks := s.tasks.modify id fun t =>
        { t with refundStatus := .pending, refundQuota := task.owed } }

theorem prepared_of_ok {expectedQuota : ℤ} {pending : Bool}
    (h : prepareTaskRefundIntent id expectedQuota s = .ok ((quota, pending), s')) :
    ∃ task, s.tasks.get? id = some task ∧ Prepared id s task quota pending s' := by
  simp only [prepareTaskRefundIntent, require_bind, orFail_bind] at h
  obtain ⟨-, task, hg, h⟩ := h
  refine ⟨task, hg, ?_⟩
  split at h
  · rename_i hst
    cases pure_eq_ok.1 h
    exact .completed hst
  · rename_i hst
    simp only [require_bind, pure_eq_ok] at h
    obtain ⟨hpos, h⟩ := h
    cases h
    exact .pending hst hpos
  · rename_i hst
    split at h
    · cases pure_eq_ok.1 h
      exact .nothing
    · simp only [require_bind, pure_eq_ok] at h
      obtain ⟨hpos, -, h⟩ := h
      cases h
      exact .intended hst hpos

/-- What `ApplyPreparedTaskRefund` answers and stores for the task it finds. -/
inductive Applied (id : ℕ) (s : Store) (task : Task) : ℤ → Store → Prop
  | completed (done : task.refundStatus = .completed) : Applied id s task task.refundQuota s
  | refunded (pending : task.refundStatus = .pending) (pos : 0 < task.refundQuota) (billing : Db)
      (refund : refundSource task s.billing = .ok billing) :
      Applied id s task task.refundQuota {
        billing := adjustToken task.tokenId (-task.refundQuota) billing
        tasks := s.tasks.modify id fun t => { t with quota := 0, refundStatus := .completed } }

theorem applied_of_ok {applied : Bool}
    (h : applyPreparedTaskRefund id s = .ok ((quota, applied), s')) :
    ∃ task, s.tasks.get? id = some task ∧ Applied id s task quota s' := by
  simp only [applyPreparedTaskRefund, require_bind, orFail_bind] at h
  obtain ⟨-, task, hg, h⟩ := h
  refine ⟨task, hg, ?_⟩
  split at h
  · rename_i hst
    cases pure_eq_ok.1 h
    exact .completed hst
  · simp only [eq_ok] at h
    obtain ⟨⟨hst, hpos⟩, billing, hrf, ⟨rfl, -⟩, rfl⟩ := h
    exact .refunded hst hpos billing hrf

/-! ## What the source of a task has -/

/-- The used amount of a subscription, zero for one that is not there. -/
def amountUsedOf (db : Db) (id : ℕ) : ℤ :=
  (db.subscriptions.get? id).elim 0 UserSubscription.amountUsed

/-- The balance that a task is paid from: the wallet of its user, or the amount of its subscription,
of which the part that is used counts against it. -/
def Task.fund (task : Task) (db : Db) : ℤ :=
  if task.IsSubscription then -amountUsedOf db task.subscriptionId
  else walletOf db.users task.userId

@[simp] theorem fund_adjustToken (task : Task) (tokenId : ℕ) (delta : ℤ) (db : Db) :
    task.fund (adjustToken tokenId delta db) = task.fund db := rfl

/-- A refund credits at most its amount. -/
theorem fund_refundSource {task : Task} {db db' : Db} (hpos : 0 < task.refundQuota)
    (h : refundSource task db = .ok db') : task.fund db' - task.fund db ≤ task.refundQuota := by
  unfold refundSource at h
  unfold Task.fund
  split at h
  · rename_i hsub
    simp only [orFail_bind, pure_eq_ok] at h
    obtain ⟨sub, hg, rfl⟩ := h
    rw [if_pos hsub, if_pos hsub]
    have hbef : amountUsedOf db task.subscriptionId = sub.amountUsed := by simp [amountUsedOf, hg]
    have haft : amountUsedOf (db.setUsed task.subscriptionId sub
        (clampUsed (sub.amountUsed - task.refundQuota))) task.subscriptionId =
        clampUsed (sub.amountUsed - task.refundQuota) := by
      simp [amountUsedOf, Db.setUsed, Db.saveSubscription, get?_modify_self, hg]
    rw [hbef, haft]
    unfold clampUsed
    split <;> omega
  · rename_i hwal
    rw [if_neg hwal, if_neg hwal]
    split at h
    · simp only [eq_ok] at h
      obtain ⟨_, hus, rfl⟩ := h
      have hsp := walletSpent_of_delta hus task.userId
      rw [if_pos rfl] at hsp
      dsimp only
      omega
    · obtain rfl := pure_eq_ok.1 h
      omega

/-- The balance of the source of a task's quota. -/
def World.fundOf (w : World) (id : ℕ) : ℤ := (w.rows.get? id).elim 0 fun r => r.task.fund w.billing

@[simp]
theorem World.fundOf_setCopy (w : World) (p id i : ℕ) (c : Option Copy) :
    (w.setCopy p id c).fundOf i = w.fundOf i := rfl

/-- The step is the refund of the task. -/
def Event.IsApply (id : ℕ) : Event → Prop
  | .apply _ i _ => i = id
  | _ => False

instance (id : ℕ) : DecidablePred (Event.IsApply id) := fun e => by
  cases e <;> unfold Event.IsApply <;> infer_instance

/-- What a step credits to the source of a task's quota as a refund. -/
def Event.credit (id : ℕ) : Event → World → ℤ :=
  Attribution.stepDecrease Event.step (Event.IsApply id) fun w => -w.fundOf id

/-! ## Changes -/

/-- The row after `intended`. -/
def Row.pending (row : Row) : Row :=
  { row with task := { row.task with refundStatus := .pending, refundQuota := row.task.owed } }

/-- The row after its refund. -/
def Row.completed (row : Row) : Row :=
  { row with task := { row.task with quota := 0, refundStatus := .completed } }

/-- The row with another quota. -/
def Row.requoted (row : Row) (quota : ℤ) : Row := { row with task := { row.task with quota } }

/-- What a step does to the view of the task `id`, with what it credits to the task's source. -/
inductive Change (id : ℕ) (v : View) : Event → ℤ → View → Prop
  | same (e : Event) : Change id v e 0 v
  | inserted (sub : Submission) (now : ℤ) (absent : v.row = none) :
      Change id v (.insert sub now) 0 { v with row := some (sub.row now) }
  | read (p : ℕ) (env : PollEnv) (reader : Reader) (row : Row) (phase : Phase)
      (stored : v.row = some row)
      (refunds : phase = .holding ∨ (row.status = .failure ∧ phase ≠ .applying)) :
      Change id v (.read p id env reader) 0 (v.set p (some ⟨reader, row, phase⟩))
  | crashed (p : ℕ) : Change id v (.crash p id) 0 (v.set p none)
  | kept (p : ℕ) (env : PollEnv) (reply : Answer) (c : Copy) (d : Decision) (phase : Phase)
      (held : v.copies p = some c) (holding : c.phase = .holding)
      (decided : decision env c.reader reply c.row = some d)
      (goes : (d.guard = none ∧ phase = d.won) ∨ phase = d.lost) :
      Change id v (.answer p id env reply) 0 (v.set p (some { c with row := d.row, phase }))
  | updated (p : ℕ) (env : PollEnv) (reply : Answer) (c : Copy) (d : Decision) (row : Row)
      (held : v.copies p = some c) (holding : c.phase = .holding)
      (decided : decision env c.reader reply c.row = some d) (stored : v.row = some row)
      (guard : d.guard = some row.status) :
      Change id v (.answer p id env reply) 0
        (View.set { v with row := some { d.row with updatedAt := env.now } } p
          (some { c with row := d.row, phase := d.won }))
  | rested (e : Event) (p : ℕ) (c : Copy) (held : v.copies p = some c) :
      Change id v e 0 (v.set p (some { c with phase := c.reader.rest }))
  | resumed (e : Event) (p : ℕ) (c : Copy) (held : v.copies p = some c)
      (preparing : c.phase = .preparing) :
      Change id v e 0 (v.set p (some { c with phase := .applying }))
  | intended (e : Event) (p : ℕ) (c : Copy) (row : Row) (held : v.copies p = some c)
      (preparing : c.phase = .preparing) (stored : v.row = some row)
      (fresh : row.task.refundStatus = .none) (pos : 0 < row.task.owed) :
      Change id v e 0 (View.set { v with row := some row.pending } p
        (some { c with phase := .applying }))
  | learned (e : Event) (p : ℕ) (c : Copy) (row : Row) (held : v.copies p = some c)
      (refunding : c.phase = .preparing ∨ c.phase = .applying) (stored : v.row = some row)
      (completed : row.task.refundStatus = .completed) :
      Change id v e 0 (v.set p (some { c with
        row := c.row.refunded row.task.refundQuota, phase := c.reader.rest }))
  | refunded (e : Event) (p : ℕ) (c : Copy) (row : Row) (credit : ℤ) (held : v.copies p = some c)
      (applying : c.phase = .applying) (stored : v.row = some row)
      (pending : row.task.refundStatus = .pending) (pos : 0 < row.task.refundQuota)
      (credit_le : credit ≤ row.task.refundQuota) :
      Change id v e credit (View.set { v with row := some row.completed } p (some { c with
        row := c.row.refunded row.task.refundQuota, phase := c.reader.rest }))
  | adjusted (p : ℕ) (env : PollEnv) (c : Copy) (actualQuota : ℤ) (held : v.copies p = some c) :
      Change id v (.adjust p id env actualQuota) 0 (v.set p (some { c with
        row := c.row.requoted actualQuota, phase := .requoting }))
  | requoted (e : Event) (p : ℕ) (c : Copy) (row : Row) (held : v.copies p = some c)
      (stored : v.row = some row) :
      Change id v e 0 (View.set { v with row := some (row.requoted c.row.task.quota) } p
        (some { c with phase := c.reader.rest }))

variable {w : World} {p id i : ℕ} {env : PollEnv} {c : Copy}

theorem Event.credit_of_not_apply (h : ¬e.IsApply id) : e.credit id w = 0 := if_neg h

/-- A change of the rows of another task is none of this one. -/
theorem World.view_modify_of_ne (w : World) (f : Row → Row) (billing : Db) (h : i ≠ id) :
    view { w with billing, rows := w.rows.modify id f } i = w.view i := by
  simp only [view, get?_modify_of_ne _ _ h]

theorem World.view_modify_self (hg : w.rows.get? id = some row) (f : Row → Row)
    (billing : Db) : view { w with billing, rows := w.rows.modify id f } id =
      { w.view id with row := some (f row) } := by
  simp only [view, get?_modify_self, hg, map_some]

/-- To store the task of a row again changes nothing. -/
theorem modify_stored {rows : Table Row} (hg : rows.get? id = some row) :
    (rows.modify id fun r => { r with task := ((rows.map Row.task).get? id).getD r.task }) = rows :=
  modify_eq_self hg (by simp [hg])

/-- A committed transaction on a task, as a change of its row. -/
theorem transact_eq_ok (h : w.transact env id tx = .ok (a, w')) :
    ∃ s : Store, tx ⟨w.billing, w.rows.map Row.task⟩ = .ok (a, s) ∧ w' = { w with
        billing := s.billing
        rows := w.rows.modify id fun r => { r with task := (s.tasks.get? id).getD r.task } } := by
  simp only [transact, eq_ok] at h
  obtain ⟨-, ⟨b, s⟩, htx, rfl, rfl⟩ := h
  exact ⟨s, htx, rfl⟩

theorem World.view_transact_of_ne (h : w.transact env id tx = .ok (a, w')) (hne : i ≠ id) : w'.view i = w.view i := by
  obtain ⟨s, -, rfl⟩ := transact_eq_ok h
  exact w.view_modify_of_ne _ s.billing hne

/-- The two outcomes of `UpdateWithStatus`. -/
theorem updateWithStatus_cases (env : PollEnv) (id : ℕ) (row : Row) (fromStatus : TaskStatus)
    (rows : Table Row) : updateWithStatus env id row fromStatus rows = (false, rows) ∨
      ∃ stored, rows.get? id = some stored ∧ stored.status = fromStatus ∧
        updateWithStatus env id row fromStatus rows =
          (true, rows.modify id fun _ => { row with updatedAt := env.now }) := by
  unfold updateWithStatus
  split
  · exact .inl rfl
  · rename_i stored hg
    split
    · rename_i hgua
      exact .inr ⟨stored, hg, hgua.1, rfl⟩
    · exact .inl rfl

/-- The task a step works on. -/
def Event.target? : Event → Option ℕ
  | .insert _ _ | .outside _ => none
  | .read _ id _ _ | .answer _ id _ _ | .prepare _ id _ | .apply _ id _ | .adjust _ id _ _
  | .requote _ id _ | .crash _ id => some id

theorem World.view_inPhase_of_ne
    (h : ∀ c, (f c w).view i = w.view i) : (w.inPhase phase p id f).view i = w.view i := by
  unfold inPhase
  split
  · rfl
  · split
    · exact h _
    · rfl

theorem World.view_decide_of_ne (c : Copy) (d : Decision) (h : i ≠ id) :
    (w.decide env p id c d).view i = w.view i := by
  unfold World.decide
  split
  · exact w.view_setCopy_of_ne _ h
  · rename_i fromStatus _
    rcases updateWithStatus_cases env id d.row fromStatus w.rows with hlost | ⟨_, -, -, hwon⟩
    · simp only [hlost]
      exact view_setCopy_of_ne _ _ h
    · simp only [hwon]
      rw [view_setCopy_of_ne _ _ h]
      exact w.view_modify_of_ne _ w.billing h

/-- The steps of a process on one task leave the views of the others alone. -/
theorem Event.view_of_ne (htgt : e.target? = some id) (h : i ≠ id) :
    (e.step w).view i = w.view i := by
  cases e <;> cases htgt
  case read =>
    simp only [Event.step, World.read]
    split
    · rfl
    · split
      · exact w.view_setCopy_of_ne _ h
      · rfl
  case crash => exact w.view_setCopy_of_ne _ h
  all_goals refine view_inPhase_of_ne fun c => ?_
  case answer =>
    split
    · rfl
    · exact view_decide_of_ne c _ h
  case prepare =>
    unfold World.prepare
    split
    · exact w.view_setCopy_of_ne _ h
    · rename_i hcom
      split <;> rw [view_setCopy_of_ne _ _ h, view_transact_of_ne hcom h]
  case apply =>
    unfold World.apply
    split
    · exact w.view_setCopy_of_ne _ h
    · rename_i hcom
      rw [view_setCopy_of_ne _ _ h, view_transact_of_ne hcom h]
  case adjust =>
    simp only [World.adjust]
    repeat' split
    all_goals exact view_setCopy_of_ne _ _ h
  case requote =>
    simp only [World.requote]
    rw [view_setCopy_of_ne _ _ h]
    split
    · rfl
    · exact w.view_modify_of_ne _ w.billing h

/-! ## The inversion -/

theorem World.inPhase_cases : w.inPhase phase p id f = w ∨
      ∃ c, w.copies p id = some c ∧ c.phase = phase ∧ w.inPhase phase p id f = f c w := by
  unfold inPhase
  split
  · exact .inl rfl
  · rename_i c hc
    split
    · exact .inr ⟨c, hc, ‹_›, rfl⟩
    · exact .inl rfl

section

variable (hc : w.copies p id = some c)
include hc

theorem decide_change
    (hhol : c.phase = .holding) (hd : decision env c.reader reply c.row = some d) :
    Change id (w.view id) (.answer p id env reply) 0 ((w.decide env p id c d).view id) := by
  unfold World.decide
  split
  · rename_i hgua
    rw [view_setCopy_self]
    exact .kept p env reply c d _ hc hhol hd (.inl ⟨hgua, rfl⟩)
  · rename_i fromStatus hgua
    rcases updateWithStatus_cases env id d.row fromStatus w.rows with
      hlost | ⟨row, hg, rfl, hwon⟩
    · simp only [hlost]
      rw [view_setCopy_self]
      exact .kept p env reply c d _ hc hhol hd (.inr rfl)
    · simp only [hwon, if_true]
      rw [view_setCopy_self, w.view_modify_self hg _ w.billing]
      exact .updated p env reply c d row hc hhol hd hg hgua

theorem prepare_change (hpre : c.phase = .preparing) :
    Change id (w.view id) (.prepare p id env) 0 ((w.prepare env p id c).view id) := by
  unfold prepare
  split
  · rw [view_setCopy_self]
    exact .rested _ p c hc
  · rename_i quota pending w' hcom
    obtain ⟨s, htx, rfl⟩ := transact_eq_ok hcom
    obtain ⟨_, htk, hpp⟩ := prepared_of_ok htx
    rw [get?_map, map_eq_some_iff] at htk
    obtain ⟨row, hg, rfl⟩ := htk
    -- Unless the intent is new, the row stays as it is.
    have hs := modify_stored hg
    cases hpp with
    | completed hdone =>
      simp only [Bool.false_eq_true, if_false]
      rw [hs, view_setCopy_self]
      exact .learned _ p c row hc (.inl hpre) hg hdone
    | pending =>
      simp only [if_true]
      rw [hs, view_setCopy_self]
      exact .resumed _ p c hc hpre
    | nothing =>
      simp only [Bool.false_eq_true, if_false, Row.refunded, if_true]
      rw [hs, view_setCopy_self]
      exact .rested _ p c hc
    | intended hfr hpos =>
      simp only [if_true]
      rw [view_setCopy_self, w.view_modify_self hg _ w.billing]
      simp only [get?_modify_self, get?_map, hg, map_some, getD_some]
      exact .intended _ p c row hc hpre hg hfr hpos

/-- The refund of a task credits what its row says, once the row is pending. -/
theorem apply_change (happ : c.phase = .applying) :
    Change id (w.view id) (.apply p id env)
      ((w.apply env p id c).fundOf id - w.fundOf id) ((w.apply env p id c).view id) := by
  unfold apply
  split
  · rw [view_setCopy_self, fundOf_setCopy, sub_self]
    exact .rested _ p c hc
  · rename_i quota applied w' hcom
    obtain ⟨s, htx, rfl⟩ := transact_eq_ok hcom
    obtain ⟨_, htk, happl⟩ := applied_of_ok htx
    rw [get?_map, map_eq_some_iff] at htk
    obtain ⟨row, hg, rfl⟩ := htk
    rw [view_setCopy_self, fundOf_setCopy]
    cases happl with
    | completed hdone =>
      rw [modify_stored hg, sub_self]
      exact .learned _ p c row hc (.inr happ) hg hdone
    | refunded hpen hpos _ hrf =>
      rw [w.view_modify_self hg _ _]
      simp only [get?_modify_self, get?_map, hg, map_some, getD_some]
      refine .refunded _ p c row _ hc happ hg hpen hpos ?_
      have hfu := fund_refundSource hpos hrf
      simp only [fundOf, get?_modify_self, hg, map_some, elim_some, fund_adjustToken]
      exact hfu

theorem adjust_change {actualQuota : ℤ} :
    Change id (w.view id) (.adjust p id env actualQuota) 0
      ((w.adjust env p id c actualQuota).view id) := by
  simp only [adjust]
  split
  · rw [view_setCopy_self]
    exact .rested _ p c hc
  · split
    · rw [view_setCopy_self]
      exact .rested _ p c hc
    · rw [view_setCopy_self]
      exact .adjusted p env c actualQuota hc

theorem requote_change :
    Change id (w.view id) (.requote p id env) 0 ((w.requote env p id c).view id) := by
  simp only [requote]
  rw [view_setCopy_self]
  split
  · exact .rested _ p c hc
  · cases hg : w.rows.get? id with
    | none =>
      have hs : view { w with rows := w.rows.modify id fun r =>
          { r with task := { r.task with quota := c.row.task.quota } } } id = w.view id := by
        simp [view, get?_modify_self, hg]
      rw [hs]
      exact .rested _ p c hc
    | some row =>
      rw [w.view_modify_self hg _ w.billing]
      exact .requoted _ p c row hc hg

end

theorem inPhase_change (h : ∀ c, w.copies p id = some c → c.phase = phase →
      Change id (w.view id) e 0 ((f c w).view id)) :
    Change id (w.view id) e 0 ((w.inPhase phase p id f).view id) := by
  rcases inPhase_cases (w := w) with hidle | ⟨c, hc, hph, hs⟩
  · rw [hidle]
    exact .same _
  · rw [hs]
    exact h c hc hph

/-- A step on the task itself. -/
theorem Event.change_target (w : World) (htgt : e.target? = some id) :
    Change id (w.view id) e (e.credit id w) ((e.step w).view id) := by
  cases e <;> cases htgt
  case read p env reader =>
    change Change id _ _ 0 ((w.read env reader p id).view id)
    unfold World.read
    split
    · exact .same _
    · rename_i row hg
      split
      · rename_i hfin
        rw [view_setCopy_self]
        refine .read p env reader row _ hg ?_
        split
        · rename_i hrea
          subst hrea
          exact .inr ⟨hfin.1, beginRefund_ne_applying _ _⟩
        · exact .inl rfl
      · exact .same _
  case answer =>
    refine inPhase_change fun c hc hhol => ?_
    split
    · exact .same _
    · rename_i d hd
      exact decide_change hc hhol hd
  case prepare => exact inPhase_change fun c hc hpre => prepare_change hc hpre
  case apply p env =>
    have hcr : (Event.apply p id env).credit id w =
        ((Event.apply p id env).step w).fundOf id - w.fundOf id := by
      simp only [Event.credit, Attribution.stepDecrease, Event.IsApply, if_true]
      ring
    rw [hcr]
    simp only [Event.step]
    rcases inPhase_cases (w := w) with hidle | ⟨c, hc, happ, hs⟩
    · rw [hidle, sub_self]
      exact .same _
    · rw [hs]
      exact apply_change hc happ
  case adjust => exact inPhase_change fun c hc _ => adjust_change hc
  case requote => exact inPhase_change fun c hc _ => requote_change hc
  case crash p =>
    rw [Event.credit_of_not_apply (by simp [Event.IsApply]), Event.step, view_setCopy_self]
    exact .crashed p

theorem insert_change (sub : Submission) (now : ℤ) (w : World) (id : ℕ) :
    Change id (w.view id) (.insert sub now) 0 (((Event.insert sub now).step w).view id) := by
  by_cases hid : id = w.rows.next
  · subst hid
    have hv : ((Event.insert sub now).step w).view w.rows.next =
        { w.view w.rows.next with row := some (sub.row now) } := by
      simp [Event.step, view, get?_insert_self]
    rw [hv]
    exact .inserted sub now w.rows.get?_next
  · have hv : ((Event.insert sub now).step w).view id = w.view id := by
      simp [Event.step, view, get?_insert, hid]
    rw [hv]
    exact .same _

/-- **Every step changes the view of every task as `Change` says.** -/
theorem Event.change (e : Event) (w : World) (id : ℕ) :
    Change id (w.view id) e (e.credit id w) ((e.step w).view id) := by
  by_cases htgt : e.target? = some id
  · exact e.change_target w htgt
  · -- A step on another task, or one that belongs to no task.
    have hcr : e.credit id w = 0 := by
      refine Event.credit_of_not_apply fun h => htgt ?_
      cases e <;> first | exact h.elim | exact congrArg some h
    rw [hcr]
    cases e with
    | insert sub now => exact insert_change sub now w id
    | outside => exact .same _
    | _ =>
      rw [Event.view_of_ne rfl fun h => htgt (congrArg some h.symm)]
      exact .same _

end LmmApi.AsyncTask
