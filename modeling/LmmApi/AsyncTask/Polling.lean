import LmmApi.AsyncTask.Billing

/-!
# Who writes a task row

Five kinds of readers load whole rows of the `tasks` table into memory and write them back later:
the sweep of timed-out tasks, the sweep of failed tasks without a refund, the two pollers and the
fetch of a single task by its user. A row is written back whole by `UpdateWithStatus`, under the
condition that the stored status is still the one that was read.

`Decision` is what a reader makes of an answer of the upstream: the row in memory afterwards, the
status that guards the update, and what it does next when the update is applied or not. Which reader
a platform or channel is served by, and how an answer is parsed, is left open: any reader may load
any row that its query finds, and get any answer.
-/

namespace LmmApi.AsyncTask

open Guarded Subscription

/-- `TaskStatus`; an upstream may report any text. -/
inductive TaskStatus
  | notStart
  | submitted
  | queued
  | inProgress
  | failure
  | success
  | other (text : String)
  deriving DecidableEq

def TaskStatus.ofText (text : String) : TaskStatus :=
  if text = "NOT_START" then .notStart
  else if text = "SUBMITTED" then .submitted
  else if text = "QUEUED" then .queued
  else if text = "IN_PROGRESS" then .inProgress
  else if text = "FAILURE" then .failure
  else if text = "SUCCESS" then .success
  else .other text

/-- The task is finished. -/
def TaskStatus.Terminal (s : TaskStatus) : Prop := s = .failure ∨ s = .success
  deriving Decidable

/-- A row of the `tasks` table: its billing columns and those that pollers read and write. -/
structure Row where
  task : Task
  taskId : String
  status : TaskStatus := .notStart
  progress : String := "0%"
  failReason : String := ""
  submitTime : ℤ
  startTime : ℤ := 0
  finishTime : ℤ := 0
  resultUrl : String := ""
  data : String := ""
  updatedAt : ℤ := 0

def taskRefundLegacyCutoff : ℤ := 1771718400

/-- What a process reads besides the tables: the clock, two settings, and whether its statement
fails. A statement that matches a row but changes nothing may be reported as failed too. -/
structure PollEnv where
  now : ℤ
  taskTimeoutMinutes : ℤ := 1440
  serverAddress : String := ""
  fails : Bool := false

variable (env : PollEnv) (reader : Reader) (p id : ℕ) (c : Copy) (info : TaskInfo)

def buildProxyUrl (taskId : String) : String := s!"{env.serverAddress}/v1/videos/{taskId}/content"

/-! ## Readers -/

inductive Reader
  | timeoutSweep
  | failureSweep
  | sunoPoll
  | videoPoll
  | realtimeFetch
  deriving DecidableEq

/-- The row is one that the query of the reader finds: `GetTimedOutUnfinishedTasks`,
`GetUnrefundedFailedTasks`, `GetAllUnFinishSyncTasks` and `GetByTaskId`. -/
def Reader.Finds (row : Row) : Reader → Prop
  | .timeoutSweep => 0 < env.taskTimeoutMinutes ∧ row.progress ≠ "100%" ∧ ¬row.status.Terminal ∧
      row.submitTime < env.now - env.taskTimeoutMinutes * 60
  | .failureSweep => row.status = .failure ∧ (row.task.refundStatus = .pending ∨
        (row.task.refundStatus = .none ∧ (row.task.quota ≠ 0 ∨ row.task.refundQuota ≠ 0))) ∧
      row.updatedAt ≤ env.now - 30 ∧
      (row.submitTime ≤ 0 ∨ taskRefundLegacyCutoff ≤ row.submitTime)
  | .sunoPoll | .videoPoll => row.progress ≠ "100%" ∧ ¬row.status.Terminal
  | .realtimeFetch => True

instance (env : PollEnv) (row : Row) (reader : Reader) : Decidable (reader.Finds env row) := by
  cases reader <;> unfold Reader.Finds <;> infer_instance

/-- What the holder of a row in memory does next. -/
inductive Phase
  /-- Handle an answer of the upstream, or time the task out. -/
  | holding
  /-- Call `PrepareTaskRefundIntent`. -/
  | preparing
  /-- Call `ApplyPreparedTaskRefund`. -/
  | applying
  /-- Settle the cost of a successful task. -/
  | settling
  /-- Store the quota of a settled task. -/
  | requoting
  | done
  deriving DecidableEq

/-- A poller keeps its rows until the end of its pass. -/
def Reader.rest : Reader → Phase
  | .sunoPoll | .videoPoll => .holding
  | _ => .done

/-- The checks of `RefundTaskQuota` on the row in memory. -/
def beginRefund (row : Row) : Phase :=
  if row.task.quota < 0 then reader.rest
  else if row.task.quota = 0 ∧ row.task.refundStatus ≠ .pending then reader.rest
  else .preparing

/-! ## Answers of the upstream -/

/-- `SunoDataResponse`. -/
structure SunoItem where
  status : String
  failReason : String
  submitTime : ℤ
  startTime : ℤ
  finishTime : ℤ
  data : String

structure TaskInfo where
  status : String
  reason : String := ""
  url : String := ""
  progress : String := ""

inductive Answer
  /-- No upstream is asked. -/
  | nothing
  /-- The row has no upstream id. -/
  | noUpstreamId
  | channelMissing (channelId : ℕ)
  | suno (item : SunoItem)
  /-- The upstream of a video task refuses with code 429. -/
  | rateLimited (data : String)
  | video (info : TaskInfo) (data : String)
  | realtime (info : TaskInfo)

/-- The row in memory after an answer, the status that guards its update, if there is one, and what
comes next when the update is applied (or none is made) and when it is not. -/
structure Decision where
  row : Row
  guard : Option TaskStatus
  won : Phase
  lost : Phase

/-! ## Decisions -/

/-- The task was submitted before refunds of timed-out tasks were introduced. -/
def Row.IsLegacy (row : Row) : Prop := 0 < row.submitTime ∧ row.submitTime < taskRefundLegacyCutoff
  deriving Decidable

/-- The quota of a legacy task that times out is cleared, so that it is never refunded. -/
def Row.timedOutTask (row : Row) : Task :=
  if row.IsLegacy then { row.task with quota := 0 } else row.task

/-- The body of the loop of `sweepTimedOutTasks`. -/
def timeOut (row : Row) : Decision :=
  let minutes := env.taskTimeoutMinutes
  let row' := { row with
    status := .failure
    progress := "100%"
    finishTime := env.now
    failReason := if row.IsLegacy then "任务超时（旧系统遗留任务，不进行退款，请联系管理员）"
      else s!"任务超时（{minutes}分钟）"
    task := row.timedOutTask }
  { row := row'
    guard := some row.status
    won := if ¬row.IsLegacy ∧ row.task.quota ≠ 0 then beginRefund .timeoutSweep row' else .done
    lost := .done }

/-- The refund after a failed task was stored. -/
def refundNonzero (row : Row) : Phase :=
  if row.task.quota ≠ 0 then beginRefund reader row else reader.rest

/-- `failTaskForPolling`: a finished task is left alone. -/
def failTaskForPolling (reason : String) (row : Row) : Option Decision :=
  if row.status.Terminal then none
  else
    let row' := { row with
      status := .failure
      progress := "100%"
      failReason := reason
      finishTime := if row.finishTime = 0 then env.now else row.finishTime }
    some { row := row', guard := some row.status, won := refundNonzero reader row',
           lost := reader.rest }

/-- `updateSunoTasks` when the channel is gone. -/
def failSunoTask (channelId : ℕ) (row : Row) : Decision :=
  let row' := { row with
    status := .failure
    progress := "100%"
    failReason := s!"获取渠道信息失败，请联系管理员，渠道ID：{channelId}" }
  { row := row', guard := some row.status, won := refundNonzero .sunoPoll row', lost := .holding }

/-- `taskNeedsUpdate`; the bytes of the data are compared up to their order. -/
def taskNeedsUpdate (row : Row) (item : SunoItem) : Prop :=
  row.submitTime ≠ item.submitTime ∨ row.startTime ≠ item.startTime ∨
    row.finishTime ≠ item.finishTime ∨ row.status ≠ .ofText item.status ∨
    row.failReason ≠ item.failReason ∨ (row.status.Terminal ∧ row.progress ≠ "100%") ∨
    ¬(row.data.toUTF8.toList.isPerm item.data.toUTF8.toList = true)
  deriving Decidable

/-- The status that an item of a Suno answer gives a task. -/
def SunoItem.newStatus (item : SunoItem) (row : Row) : TaskStatus :=
  if item.failReason ≠ "" then .failure
  else if item.status ≠ "" then .ofText item.status else row.status

/-- The body of the loop of `updateSunoTasks`. -/
def updateSunoTask (item : SunoItem) (row : Row) : Option Decision :=
  if taskNeedsUpdate row item then
    let isFailure := item.newStatus row = .failure
    let row' := { row with
      status := item.newStatus row
      failReason := if item.failReason ≠ "" then item.failReason else row.failReason
      submitTime := if item.submitTime ≠ 0 then item.submitTime else row.submitTime
      startTime := if item.startTime ≠ 0 then item.startTime else row.startTime
      finishTime := if item.finishTime ≠ 0 then item.finishTime else row.finishTime
      progress := if isFailure ∨ item.status = "SUCCESS" then "100%" else row.progress
      data := item.data }
    some { row := row'
           guard := some row.status
           won := if isFailure ∧ row.status ≠ .failure then refundNonzero .sunoPoll row'
             else .holding
           lost := .holding }
  else none

/-- The result URL after a video task has succeeded. -/
def successUrl (row : Row) : String :=
  if Go.hasPrefix info.url "data:" then buildProxyUrl env row.taskId
  else if info.url ≠ "" then info.url
  else buildProxyUrl env row.taskId

/-- The row in memory after `updateVideoSingleTask` has read the status of a task, and nothing when
it does not know the status. -/
def readVideoStatus (row : Row) : Option Row :=
  match TaskStatus.ofText info.status with
  | .submitted => some { row with status := .submitted, progress := "10%" }
  | .queued => some { row with status := .queued, progress := "20%" }
  | .inProgress => some { row with
      status := .inProgress
      progress := "30%"
      startTime := if row.startTime = 0 then env.now else row.startTime }
  | .success => some { row with
      status := .success
      progress := "100%"
      finishTime := if row.finishTime = 0 then env.now else row.finishTime
      resultUrl := successUrl env info row }
  | .failure => some { row with
      status := .failure
      progress := "100%"
      finishTime := if row.finishTime = 0 then env.now else row.finishTime
      failReason := info.reason }
  | _ => none

/-- The progress after a status was read: that of the answer, if it has one; a failed task is at
its end. -/
def TaskInfo.overrideProgress (row : Row) : Row :=
  if row.status = .failure then { row with progress := "100%" }
  else if info.progress ≠ "" then { row with progress := info.progress }
  else row

/-- What follows the update of a video task: a refund, a settlement or nothing. -/
def billVideoTask (row : Row) : Phase :=
  if row.status = .failure then refundNonzero .videoPoll row
  else if row.status = .success then .settling
  else .holding

/-- `taskSnapshot.Equal`. -/
def SameSnapshot (a b : Row) : Prop :=
  a.status = b.status ∧ a.progress = b.progress ∧ a.startTime = b.startTime ∧
    a.finishTime = b.finishTime ∧ a.failReason = b.failReason ∧ a.resultUrl = b.resultUrl ∧
    a.data = b.data
  deriving Decidable

/-- `updateVideoSingleTask` with the parsed answer `info` and the redacted body `data`. Only the
update to another final status decides over the billing. -/
def updateVideoSingleTask (data : String) (row : Row) : Decision :=
  let read := { row with data }
  match readVideoStatus env info read with
  | none =>
    { row := { read with status := .ofText info.status }, guard := none, won := .holding,
      lost := .holding }
  | some known =>
    let row' := info.overrideProgress known
    if row'.status.Terminal ∧ row.status ≠ row'.status then
      { row := row', guard := some row.status, won := billVideoTask row', lost := .holding }
    else
      { row := row', guard := if SameSnapshot row row' then none else some row.status,
        won := billVideoTask row', lost := billVideoTask row' }

/-- The result URL after `tryRealtimeFetch`. -/
def realtimeUrl (status : TaskStatus) (row : Row) : String :=
  if Go.hasPrefix info.url "data:" then row.resultUrl
  else if info.url ≠ "" then info.url
  else if status = .success then buildProxyUrl env row.taskId
  else row.resultUrl

/-- The status that `tryRealtimeFetch` gives a task. -/
def TaskInfo.newStatus (row : Row) : TaskStatus :=
  if info.status ≠ "" then .ofText info.status else row.status

/-- `tryRealtimeFetch`, which looks at no status of the row before it writes. -/
def tryRealtimeFetch (row : Row) : Decision :=
  let row' := { row with
    status := info.newStatus row
    progress := if info.progress ≠ "" then info.progress else row.progress
    resultUrl := realtimeUrl env info (info.newStatus row) row }
  { row := row', guard := if SameSnapshot row row' then none else some row.status,
    won := .done, lost := .done }

/-- What a reader makes of an answer. -/
def decision (answer : Answer) (row : Row) : Option Decision :=
  match reader, answer with
  | .timeoutSweep, .nothing => some (timeOut env row)
  | .sunoPoll, .noUpstreamId => failTaskForPolling env .sunoPoll "任务缺少上游任务 ID" row
  | .videoPoll, .noUpstreamId => failTaskForPolling env .videoPoll "任务缺少上游任务 ID" row
  | .sunoPoll, .channelMissing channelId => some (failSunoTask channelId row)
  | .videoPoll, .channelMissing channelId =>
    failTaskForPolling env .videoPoll s!"Failed to get channel info, channel ID: {channelId}" row
  | .sunoPoll, .suno item => updateSunoTask item row
  | .videoPoll, .rateLimited data =>
    some { row := { row with data }, guard := none, won := .holding, lost := .holding }
  | .videoPoll, .video info data => some (updateVideoSingleTask env info data row)
  | .realtimeFetch, .realtime info => some (tryRealtimeFetch env info row)
  | _, _ => none

/-! ## The world -/

/-- A row that a reader has in memory. -/
structure Copy where
  reader : Reader
  row : Row
  phase : Phase

/-- The tables, and for each process and task the row that the process holds. -/
structure World where
  billing : Db
  rows : Table Row
  copies : ℕ → ℕ → Option Copy

def World.setCopy (w : World) (p id : ℕ) (c : Option Copy) : World :=
  { w with copies := fun q i => if q = p ∧ i = id then c else w.copies q i }

/-- What `RelayTask` stores of a submitted task. -/
structure Submission where
  userId : ℕ
  quota : ℕ
  billingSource : BillingSource
  subscriptionId : ℕ
  tokenId : ℕ
  taskId : String
  submitTime : ℤ
  data : String

/-- The new row of a submitted task. -/
def Submission.row (sub : Submission) (now : ℤ) : Row where
  task := { userId := sub.userId, quota := sub.quota, billingSource := sub.billingSource,
            subscriptionId := sub.subscriptionId, tokenId := sub.tokenId }
  taskId := sub.taskId
  submitTime := sub.submitTime
  data := sub.data
  updatedAt := now

/-- `UpdateWithStatus`: whether the update was applied, and the table after it. -/
def updateWithStatus (id : ℕ) (row : Row) (fromStatus : TaskStatus)
    (rows : Table Row) : Bool × Table Row :=
  match rows.get? id with
  | none => (false, rows)
  | some stored =>
    if stored.status = fromStatus ∧ env.fails = false then
      (true, rows.modify id fun _ => { row with updatedAt := env.now })
    else (false, rows)

/-- A billing transaction on the task `id`, run on the billing columns of its row. -/
def World.transact {α : Type} (env : PollEnv) (id : ℕ)
    (tx : Store → Except Failure (α × Store)) (w : World) : Except Failure (α × World) := do
  require (.other "statement failed") (env.fails = false)
  let (a, s) ← tx ⟨w.billing, w.rows.map Row.task⟩
  return (a, { w with
    billing := s.billing
    rows := w.rows.modify id fun r => { r with task := (s.tasks.get? id).getD r.task } })

/-- The row in memory after a refund of `quota`. -/
def Row.refunded (row : Row) (quota : ℤ) : Row :=
  if quota = 0 then row
  else { row with task := { row.task with
    quota := 0, refundQuota := quota, refundStatus := .completed } }

/-- A step of the system. Every step but the first two and the last belongs to a process and the
task it works on. -/
inductive Event
  | insert (sub : Submission) (now : ℤ)
  | read (p id : ℕ) (env : PollEnv) (reader : Reader)
  | answer (p id : ℕ) (env : PollEnv) (reply : Answer)
  | prepare (p id : ℕ) (env : PollEnv)
  | apply (p id : ℕ) (env : PollEnv)
  /-- Adjust the funding of a successful task to the cost `actualQuota`. -/
  | adjust (p id : ℕ) (env : PollEnv) (actualQuota : ℤ)
  | requote (p id : ℕ) (env : PollEnv)
  | crash (p id : ℕ)
  /-- Anything else changes wallets, tokens and subscriptions. -/
  | outside (billing : Db)

/-- Read a row; the failure sweep goes on with the refund. -/
def World.read (w : World) : World :=
  match w.rows.get? id with
  | none => w
  | some row =>
    if reader.Finds env row then
      w.setCopy p id (some ⟨reader, row,
        if reader = .failureSweep then beginRefund reader row else .holding⟩)
    else w

/-- Carry a decision out. -/
def World.decide (d : Decision) (w : World) : World :=
  match d.guard with
  | none => w.setCopy p id (some { c with row := d.row, phase := d.won })
  | some fromStatus =>
    let (won, rows) := updateWithStatus env id d.row fromStatus w.rows
    World.setCopy { w with rows } p id
      (some { c with row := d.row, phase := if won then d.won else d.lost })

/-- `PrepareTaskRefundIntent` within `RefundTaskQuota`. -/
def World.prepare (w : World) : World :=
  match w.transact env id (prepareTaskRefundIntent id c.row.task.quota) with
  | .error _ => w.setCopy p id (some { c with phase := c.reader.rest })
  | .ok ((quota, pending), w') =>
    if pending then w'.setCopy p id (some { c with phase := .applying })
    else w'.setCopy p id (some { c with row := c.row.refunded quota, phase := c.reader.rest })

/-- `ApplyPreparedTaskRefund` within `RefundTaskQuota`. -/
def World.apply (w : World) : World :=
  match w.transact env id (applyPreparedTaskRefund id) with
  | .error _ => w.setCopy p id (some { c with phase := c.reader.rest })
  | .ok ((quota, _), w') =>
    w'.setCopy p id (some { c with row := c.row.refunded quota, phase := c.reader.rest })

/-- `RecalculateTaskQuota` up to the update of the row. -/
def World.adjust (actualQuota : ℤ) (w : World) : World :=
  let delta := actualQuota - c.row.task.quota
  if actualQuota ≤ 0 ∨ delta = 0 ∨ env.fails then
    w.setCopy p id (some { c with phase := c.reader.rest })
  else
    match taskAdjustFunding c.row.task delta w.billing with
    | .error _ => w.setCopy p id (some { c with phase := c.reader.rest })
    | .ok billing =>
      World.setCopy { w with billing := adjustToken c.row.task.tokenId delta billing } p id
        (some { c with
          row := { c.row with task := { c.row.task with quota := actualQuota } }
          phase := .requoting })

/-- `UpdateQuota`. -/
def World.requote (w : World) : World :=
  let rows := if env.fails then w.rows
    else w.rows.modify id fun r => { r with task := { r.task with quota := c.row.task.quota } }
  World.setCopy { w with rows } p id (some { c with phase := c.reader.rest })

/-- The step of the process `p` on the task `id` if it is in the phase for it. -/
def World.inPhase (phase : Phase) (p id : ℕ) (f : Copy → World → World) (w : World) : World :=
  match w.copies p id with
  | none => w
  | some c => if c.phase = phase then f c w else w

/-- The world after a step. -/
def Event.step : Event → World → World
  | .insert sub now, w => { w with rows := w.rows.insert (sub.row now) }
  | .read p id env reader, w => w.read env reader p id
  | .answer p id env reply, w => w.inPhase .holding p id fun c w =>
      match decision env c.reader reply c.row with
      | none => w
      | some d => w.decide env p id c d
  | .prepare p id env, w => w.inPhase .preparing p id (World.prepare env p id)
  | .apply p id env, w => w.inPhase .applying p id (World.apply env p id)
  | .adjust p id env actualQuota, w =>
      w.inPhase .settling p id fun c w => w.adjust env p id c actualQuota
  | .requote p id env, w => w.inPhase .requoting p id (World.requote env p id)
  | .crash p id, w => w.setCopy p id none
  | .outside billing, w => { w with billing }

/-- No tasks yet, and no process. -/
def World.start (billing : Db) : World := ⟨billing, .empty, fun _ _ => none⟩

end LmmApi.AsyncTask
