import LmmApi.Subscription.Effect

/-!
# Billing of asynchronous tasks

An asynchronous task is charged when it is submitted, from the wallet or from a subscription, and
its row keeps where the quota came from. When the task fails, the quota is refunded in two
transactions: `prepareTaskRefundIntent` stores the amount and `applyPreparedTaskRefund` moves it.
When it succeeds with another cost, `recalculateTaskQuota` moves the difference; it is no single
transaction, and the token and the task row are only adjusted after the money was.

The counters of used quota of users and channels, and the logs, are left out.
-/

namespace LmmApi.AsyncTask

open Guarded Subscription

/-- Where the quota of a task came from. -/
inductive BillingSource
  | wallet
  | subscription
  deriving DecidableEq

/-- `TaskRefundStatus`. -/
inductive RefundStatus
  | none
  | pending
  | completed
  deriving DecidableEq

/-- The part of a row of the `tasks` table that billing reads and writes. -/
structure Task where
  userId : ℕ
  quota : ℤ
  refundStatus : RefundStatus := .none
  refundQuota : ℤ := 0
  billingSource : BillingSource
  subscriptionId : ℕ
  tokenId : ℕ
  deriving DecidableEq

/-- The tables of subscription billing together with the tasks. -/
structure Store where
  billing : Db
  tasks : Table Task

def errTaskRefundInvalid : Failure := .other "invalid task refund intent"

variable (id : ℕ) (task : Task)

/-- `taskIsSubscription`. -/
def Task.IsSubscription : Prop :=
  task.billingSource = .subscription ∧ 0 < task.subscriptionId
  deriving Decidable

/-! ## Refunds -/

/-- The amount that a refund of a task has to move. -/
def Task.owed : ℤ := if task.refundQuota = 0 then task.quota else task.refundQuota

/-- `PrepareTaskRefundIntent`: the amount to refund, and whether it is pending. -/
def prepareTaskRefundIntent (expectedQuota : ℤ) (s : Store) :
    Except Failure ((ℤ × Bool) × Store) := do
  require errTaskRefundInvalid (0 < id ∧ 0 ≤ expectedQuota)
  let task ← orFail (s.tasks.get? id) .recordNotFound
  match task.refundStatus with
  | .completed => return ((task.refundQuota, false), s)
  | .pending =>
    require errTaskRefundInvalid (0 < task.refundQuota)
    return ((task.refundQuota, true), s)
  | .none =>
    if task.owed = 0 then
      return ((0, false), s)
    else
      require errTaskRefundInvalid (0 < task.owed)
      -- The stored row decides; the expected amount is only compared with it.
      require errTaskRefundInvalid
        ¬(0 < expectedQuota ∧ task.quota ≠ expectedQuota ∧ task.refundQuota = 0)
      return ((task.owed, true), { s with tasks := s.tasks.modify id fun t =>
        { t with refundStatus := .pending, refundQuota := task.owed } })

/-- The refund to the source of a task's quota. -/
def refundSource (db : Db) : Except Failure Db :=
  if task.IsSubscription then do
    let sub ← orFail (db.subscriptions.get? task.subscriptionId) .recordNotFound
    return db.setUsed task.subscriptionId sub (clampUsed (sub.amountUsed - task.refundQuota))
  else if 0 < task.userId then do
    let users ← applyWalletQuotaDelta db.users task.userId task.refundQuota
    return { db with users }
  else return db

/-- The token of a task with `delta` taken from it, if it still exists. -/
def adjustToken (tokenId : ℕ) (delta : ℤ) (db : Db) : Db :=
  let tokens := db.tokens.modifyWhere
    (fun i t => i = tokenId ∧ 0 < tokenId ∧ t.deleted = false) (Token.spend delta)
  { db with tokens }

/-- `ApplyPreparedTaskRefund`: the refunded amount, and whether this call refunded it. -/
def applyPreparedTaskRefund (s : Store) : Except Failure ((ℤ × Bool) × Store) := do
  require errTaskRefundInvalid (0 < id)
  let task ← orFail (s.tasks.get? id) .recordNotFound
  if task.refundStatus = .completed then
    return ((task.refundQuota, false), s)
  else
    require errTaskRefundInvalid (task.refundStatus = .pending ∧ 0 < task.refundQuota)
    let billing ← refundSource task s.billing
    return ((task.refundQuota, true), {
      billing := adjustToken task.tokenId (-task.refundQuota) billing
      tasks := s.tasks.modify id fun t => { t with quota := 0, refundStatus := .completed } })

/-! ## Recalculation -/

def postConsumeUserSubscriptionDelta (delta : ℤ) (db : Db) : Except Failure Db := do
  require (.other "invalid userSubscriptionId") (0 < id)
  if delta = 0 then return db else postConsumeUserSubscriptionDeltaTx db id delta

/-- `taskAdjustFunding`; the wallet functions `DecreaseUserQuota` and `IncreaseUserQuota` validate
the amount first. -/
def taskAdjustFunding (delta : ℤ) (db : Db) : Except Failure Db :=
  if task.IsSubscription then postConsumeUserSubscriptionDelta task.subscriptionId delta db
  else do
    require (.walletQuota |delta|) (ValidWalletQuota |delta|)
    let users ← applyWalletQuotaDelta db.users task.userId (-delta)
    return { db with users }

/-- `RecalculateTaskQuota` of the task `id`, of which the caller holds the copy `task`. -/
def recalculateTaskQuota (actualQuota : ℤ) (s : Store) : Store :=
  let delta := actualQuota - task.quota
  if actualQuota ≤ 0 ∨ delta = 0 then s else
    match taskAdjustFunding task delta s.billing with
    | .error _ => s
    | .ok billing =>
      { billing := adjustToken task.tokenId delta billing
        tasks := s.tasks.modify id fun t => { t with quota := actualQuota } }

/-! ## Operations -/

/-- The operations on tasks and subscriptions. -/
inductive TaskOp
  | billing (op : Op)
  | submit (task : Task)
  | prepareRefund (id : ℕ) (expectedQuota : ℤ)
  | applyRefund (id : ℕ)
  | recalculate (id : ℕ) (task : Task) (actualQuota : ℤ)

/-- The store after an operation. -/
def TaskOp.step (env : Env) : TaskOp → Store → Store
  | .billing op, s => { s with billing := op.step env s.billing }
  | .submit task, s => { s with tasks := s.tasks.insert task }
  | .prepareRefund id expectedQuota, s => commit (prepareTaskRefundIntent id expectedQuota s) s
  | .applyRefund id, s => commit (applyPreparedTaskRefund id s) s
  | .recalculate id task actualQuota, s => recalculateTaskQuota id task actualQuota s

/-- The store after a run: operations, each with its own time and plans. -/
def run (s : Store) (events : List (Env × TaskOp)) : Store :=
  events.foldl (fun s e => e.2.step e.1 s) s

end LmmApi.AsyncTask
