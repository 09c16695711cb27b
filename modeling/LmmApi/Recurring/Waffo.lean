import LmmApi.Recurring.Grant

/-!
# Waffo Pancake subscriptions

The provider sends two independent streams of events for a subscription order: payments, which book
money, and lifecycle events, which grant a period. Old payments carry their period and grant it too.
`recordWaffoPancakeSubscriptionEvent` handles an event of either stream and
`updateSubscriptionProviderState` the states that grant nothing, which it only stores unless they
are terminal: then the subscription is cancelled and no later event grants a period.
-/

namespace LmmApi.Recurring

open Guarded Go
open Recharge (paymentProviderWaffoPancake)

variable (env : Env)

/-! ## Events -/

def paymentSucceeded : String := "subscription.payment_succeeded"
def lifecycleActivated : String := "subscription.activated"
def lifecycleRenewed : String := "subscription.renewed"
def lifecycleRecovered : String := "subscription.recovered"

/-- `WaffoPancakeSubscriptionEvent`. A missing time is zero. -/
structure LifecycleEvent where
  eventId : String
  eventType : String
  providerOrderId : String
  paymentId : String := ""
  billingPeriod : String := ""
  currency : String
  payload : String := ""
  paymentDate : ℤ := 0
  periodStart : ℤ
  periodEnd : ℤ
  amountMicros : ℤ
  eventTimeMillis : ℤ := 0
  deriving DecidableEq

namespace LifecycleEvent

variable (e : LifecycleEvent)

/-- The texts of the event without space around them. -/
def trimmed : LifecycleEvent :=
  { e with
    eventId := trimSpace e.eventId
    providerOrderId := trimSpace e.providerOrderId
    paymentId := trimSpace e.paymentId
    currency := toUpper (trimSpace e.currency) }

/-- Ids of events are unique for each type only. -/
def withScopedId : LifecycleEvent := { e with eventId := s!"{e.eventType}:{e.eventId}" }

def IsPayment : Prop := e.eventType = paymentSucceeded
  deriving Decidable

/-- The event carries a period. -/
def HasPeriod : Prop := 0 < e.periodStart ∧ e.periodStart < e.periodEnd
  deriving Decidable

/-- The event has what its type needs. -/
def Complete : Prop :=
  e.eventId ≠ "" ∧ e.providerOrderId ≠ "" ∧ e.currency ≠ "" ∧ 0 < e.amountMicros ∧
    if e.IsPayment then
      e.paymentId ≠ "" ∧ (0 < e.paymentDate ∨ e.HasPeriod) ∧
        (e.periodStart = 0 ∧ e.periodEnd = 0 ∨ e.HasPeriod)
    else
      (e.eventType = lifecycleActivated ∨ e.eventType = lifecycleRenewed ∨
        e.eventType = lifecycleRecovered) ∧ e.HasPeriod ∧ trimSpace e.billingPeriod ≠ ""
  deriving Decidable

variable (e : LifecycleEvent)

/-! The event as it is handled differs from the event as it came in its texts only. -/

theorem scoped_same : let s := e.trimmed.withScopedId
    s.eventType = e.eventType ∧ s.periodStart = e.periodStart ∧ s.periodEnd = e.periodEnd ∧
      s.eventTimeMillis = e.eventTimeMillis := by
  simp only [withScopedId, trimmed, and_self]

theorem trimmed_isPayment : e.trimmed.IsPayment ↔ e.IsPayment := by simp only [IsPayment, trimmed]

theorem trimmed_hasPeriod : e.trimmed.HasPeriod ↔ e.HasPeriod := by simp only [HasPeriod, trimmed]

end LifecycleEvent

def subscriptionProviderStateTerminal (state : String) : Bool :=
  state = "canceled" || state = "expired" || state = "paused" || state = "unpaid"

/-! ## Receipts -/

variable (id : ℕ) (order : Order) (orderId : ℕ) (e : LifecycleEvent) (db : Db)

/-- A settled payment that has the event or the transaction of the event, but other contents. -/
def PaymentEvent.Conflicts (r : PaymentEvent) : Prop :=
  (r.providerEventId = e.eventId ∨
    (r.paymentProvider = paymentProviderWaffoPancake ∧ r.providerTransactionId = e.paymentId)) ∧
  (r.orderId ≠ orderId ∨ r.paymentProvider ≠ paymentProviderWaffoPancake ∨
    r.providerTransactionId ≠ e.paymentId ∨ r.settlementCurrency ≠ e.currency ∨
    r.settlementAmountMicros ≠ e.amountMicros ∨
    (0 < e.periodEnd ∧ (e.periodStart ≠ r.periodStart ∨ e.periodEnd ≠ r.periodEnd)))
  deriving Decidable

/-- The receipt is that of the payment. -/
def WaffoPayment.Records (r : WaffoPayment) : Prop :=
  r.orderId = orderId ∧ r.providerOrderId = e.providerOrderId ∧ r.paymentId = e.paymentId ∧
    r.currency = e.currency ∧ r.amountMicros = e.amountMicros ∧ r.paymentDate = e.paymentDate ∧
    r.periodStart = e.periodStart ∧ r.periodEnd = e.periodEnd
  deriving Decidable

/-- The receipt of a payment. -/
def LifecycleEvent.payment (orderId : ℕ) : WaffoPayment where
  orderId
  eventId := e.eventId
  providerOrderId := e.providerOrderId
  paymentId := e.paymentId
  currency := e.currency
  amountMicros := e.amountMicros
  paymentDate := e.paymentDate
  periodStart := e.periodStart
  periodEnd := e.periodEnd

def recordWaffoPancakePayment : Except Failure Db := do
  require (.evidenceConflict "conflicting existing subscription settlement")
    ¬db.paymentEvents.Any fun _ r => r.Conflicts orderId e
  require (.evidenceConflict "subscription event ID reused across event types")
    ¬db.periods.Any fun _ r => r.eventId = e.eventId ∧ r.eventType ≠ e.eventType
  require (.evidenceConflict "conflicting subscription payment receipt")
    ¬db.payments.Any fun _ r => (r.eventId = e.eventId ∨ r.paymentId = e.paymentId) ∧
      ¬r.Records orderId e
  if db.payments.Any fun _ r => r.eventId = e.eventId ∨ r.paymentId = e.paymentId then return db
  else return { db with payments := db.payments.insert (e.payment orderId) }

/-- The settlement of a payment. A payment without a period has NULL for it. -/
def LifecycleEvent.settlement (orderId : ℕ) (now : ℤ) : PaymentEvent where
  orderId
  paymentProvider := paymentProviderWaffoPancake
  providerEventId := e.eventId
  providerTransactionId := e.paymentId
  settlementCurrency := e.currency
  settlementAmountMicros := e.amountMicros
  period := if e.periodEnd = 0 then none else some (e.periodStart, e.periodEnd)
  createdTime := now

/-- `recordWaffoPancakeSettlementTx`: whether the payment is new, with the order as the caller goes
on with it. The unique index on the order and the end of the period refuses a second payment of a
period; the other indexes are looked up before. -/
def recordWaffoPancakeSettlement : Except Failure (Bool × Order × Db) :=
  match db.paymentEvents.first? (fun _ r => r.paymentProvider = paymentProviderWaffoPancake ∧
      r.providerTransactionId = e.paymentId) with
  | some (_, r) => do
    require (.evidenceConflict "") (r.orderId = id ∧ r.settlementCurrency = e.currency ∧
      r.settlementAmountMicros = e.amountMicros)
    return (false, order, db)
  | none => do
    let row := e.settlement id env.now
    require (.other "UNIQUE constraint failed") ¬db.paymentEvents.Any fun _ r =>
      r.orderId = id ∧ row.period ≠ none ∧ r.period.map Prod.snd = row.period.map Prod.snd
    let db := { db with paymentEvents := db.paymentEvents.insert row }
    if order.status = .pending then
      let db ← upsertSubscriptionTopUp env db order
      let order := { order with
        status := .success
        completeTime := env.now
        providerPayload := e.payload }
      return (true, order, db.saveOrder id order)
    else return (true, order, db)

/-- The receipt is that of the lifecycle event. -/
def WaffoPeriod.Records (r : WaffoPeriod) : Prop :=
  r.orderId = orderId ∧ r.providerOrderId = e.providerOrderId ∧ r.eventType = e.eventType ∧
    r.billingPeriod = e.billingPeriod ∧ r.currency = e.currency ∧
    r.amountMicros = e.amountMicros ∧ r.periodStart = e.periodStart ∧ r.periodEnd = e.periodEnd
  deriving Decidable

/-- The receipt of a period. -/
def LifecycleEvent.period (orderId : ℕ) : WaffoPeriod where
  orderId
  eventId := e.eventId
  eventType := e.eventType
  providerOrderId := e.providerOrderId
  billingPeriod := e.billingPeriod
  currency := e.currency
  amountMicros := e.amountMicros
  periodStart := e.periodStart
  periodEnd := e.periodEnd

def recordWaffoPancakePeriod : Except Failure Db := do
  require (.evidenceConflict "subscription event ID reused across event types")
    ¬(¬e.IsPayment ∧ db.payments.Any fun _ r => r.eventId = e.eventId)
  match db.periods.first? (fun _ r => r.eventId = e.eventId) with
  | some (_, r) =>
    require (.evidenceConflict "conflicting subscription lifecycle receipt") (r.Records orderId e)
    return db
  | none => return { db with periods := db.periods.insert (e.period orderId) }

/-! ## Periods -/

/-- `waffoSubscriptionPlanSnapshot`. A blank snapshot does not decode. -/
def waffoSubscriptionPlanSnapshot : Except Failure Plan :=
  match order.planSnapshot with
  | .frozen plan => do
    require .planChanged (plan.id = order.planId ∧ plan.priceAmount = order.money)
    return plan
  | _ => .error (.other "decode frozen subscription plan")

/-- The subscription that a period is granted to, with its owner: the one of the order, or a new one
for an order that has none yet. -/
def subscriptionForPeriod (plan : Plan) (db : Db) :
    Except Failure ((ℕ × UserSubscription) × User × Db) :=
  if order.userSubscriptionId = 0 then do
    let user ← orFail (db.liveUser order.userId) .recordNotFound
    let (created, db) ← createUserSubscriptionFromPlan env db order.userId plan
    return (created, user, db)
  else do
    let (sub, user) ← lockUserSubscription db order.userSubscriptionId order.userId
    return ((order.userSubscriptionId, sub), user, db)

/-- The subscription with the quota of a new period. -/
def withNewPeriod (plan : Plan) (e : LifecycleEvent) (sub : UserSubscription) : UserSubscription :=
  { sub with
    startTime := e.periodStart
    endTime := e.periodEnd
    amountTotal := plan.totalAmount
    amountUsed := 0
    quotaVersion := sub.quotaVersion + 1
    lastResetTime := e.periodStart
    nextResetTime := Subscription.calcNextResetTime env.utcOffset e.periodStart
      plan.toSubscriptionPlan e.periodEnd }

/-- The subscription is active until the period has ended. -/
def withPeriodStatus (sub : UserSubscription) : UserSubscription :=
  if e.periodEnd ≤ env.now then
    { sub with status := .expired, nextResetTime := 0, updatedAt := env.now }
  else { sub with status := .active, updatedAt := env.now }

/-- What the status of a period does not concern. -/
theorem withPeriodStatus_kept (e : LifecycleEvent) (s : UserSubscription) :
    (withPeriodStatus env e s).userId = s.userId ∧
      (withPeriodStatus env e s).startTime = s.startTime ∧
      (withPeriodStatus env e s).endTime = s.endTime ∧
      (withPeriodStatus env e s).amountTotal = s.amountTotal ∧
      (withPeriodStatus env e s).amountUsed = s.amountUsed ∧
      (withPeriodStatus env e s).quotaVersion = s.quotaVersion := by
  unfold withPeriodStatus
  split <;> exact ⟨rfl, rfl, rfl, rfl, rfl, rfl⟩

/-- The order with the period of an event. -/
def Order.withPeriod (subscriptionId : ℕ) (fresh : Bool) (e : LifecycleEvent) : Order :=
  { order with
    userSubscriptionId := subscriptionId
    refundedAmountMicros := if fresh = true then 0 else order.refundedAmountMicros
    refundedQuota := if fresh = true then 0 else order.refundedQuota
    providerSubscriptionState := "active"
    currentPeriodStart := e.periodStart
    currentPeriodEnd := e.periodEnd
    providerEventTimeMillis := max order.providerEventTimeMillis e.eventTimeMillis }

/-- Save a subscription whose status has changed, with the group of its owner. -/
def saveWithGroup (subscriptionId : ℕ) (sub : UserSubscription) (user : User) (db : Db) :
    Except Failure Db :=
  if sub.status = .expired then
    downgradeUserGroup (db.saveSubscription subscriptionId sub) subscriptionId sub env.now
  else return (db.upgradeUserGroup sub user).saveSubscription subscriptionId sub

/-- The part of `applyWaffoPancakePeriodTx` after its checks of the event against the order. -/
def grantPeriod : Except Failure (Bool × Db) := do
  let plan ← waffoSubscriptionPlanSnapshot order
  let fresh := decide (order.userSubscriptionId = 0 ∨ order.currentPeriodEnd < e.periodEnd)
  let ((subscriptionId, sub), user, db) ← subscriptionForPeriod env order plan db
  if fresh = false ∧ e.eventType ≠ lifecycleRecovered then return (false, db)
  else
    let sub := if fresh = true then withNewPeriod env plan e sub else sub
    let db ← saveWithGroup env subscriptionId (withPeriodStatus env e sub) user db
    return (fresh, db.saveOrder id (order.withPeriod subscriptionId fresh e))

/-- `applyWaffoPancakePeriodTx`: whether the event granted a period. -/
def applyWaffoPancakePeriod : Except Failure (Bool × Db) := do
  require (.evidenceConflict "lifecycle grant starts after its signed event time")
    ¬(0 < e.eventTimeMillis ∧ e.eventTimeMillis / 1000 < e.periodStart)
  if subscriptionProviderStateTerminal order.providerSubscriptionState = true then
    return (false, db)
  else if 0 < e.eventTimeMillis ∧ e.eventTimeMillis < order.providerEventTimeMillis then
    return (false, db)
  else if e.periodEnd < order.currentPeriodEnd then return (false, db)
  else
    require (.evidenceConflict "")
      ¬(order.currentPeriodEnd = e.periodEnd ∧ order.currentPeriodStart ≠ e.periodStart)
    require (.evidenceConflict "overlapping subscription lifecycle periods")
      ¬(0 < order.currentPeriodEnd ∧ order.currentPeriodEnd < e.periodEnd ∧
        e.periodStart < order.currentPeriodEnd)
    grantPeriod env id order e db

/-! ## Transactions -/

/-- The event is about the order. -/
def LifecycleEvent.Matches (order : Order) : Prop :=
  0 < order.expectedAmountMicros ∧ order.expectedAmountMicros = e.amountMicros ∧
    equalFold (trimSpace order.settlementCurrency) e.currency = true ∧
    (order.providerSubscriptionId = "" ∨ order.providerSubscriptionId = e.providerOrderId)
  deriving Decidable

/-- The order with the subscription of the provider. -/
def Order.bound : Order :=
  if order.providerSubscriptionId = "" then { order with providerSubscriptionId := e.providerOrderId }
  else order

/-- The receipt and the settlement of an event of the stream of payments; a lifecycle event has
none. -/
def recordMoney : Except Failure (Bool × Order × Db) :=
  if e.IsPayment then do
    let db ← recordWaffoPancakePayment id e db
    recordWaffoPancakeSettlement env id order e db
  else return (false, order, db)

/-- The receipt and the grant of an event with a period. -/
def recordAccess : Except Failure (Bool × Db) :=
  if ¬e.IsPayment ∨ e.HasPeriod then do
    let db ← recordWaffoPancakePeriod id e db
    applyWaffoPancakePeriod env id order e db
  else return (false, db)

/-- An event with a period reads the plan of the order. -/
def lookupPlan : Except Failure Unit :=
  if ¬e.IsPayment ∨ e.HasPeriod then do
    let _ ← getSubscriptionPlanForPersistence env order.planId
    return ()
  else return ()

/-- `RecordWaffoPancakeSubscriptionEvent`: whether the event changed anything. -/
def recordWaffoPancakeSubscriptionEvent (tradeNo : String) (event : LifecycleEvent) (db : Db) :
    Except Failure (Bool × Db) := do
  require .invalidData (trimSpace tradeNo ≠ "" ∧ event.trimmed.Complete)
  let e := event.trimmed.withScopedId
  let (id, order) ← orFail (db.findOrder tradeNo) .orderNotFound
  lookupPlan env order e
  require .methodMismatch (order.paymentProvider = paymentProviderWaffoPancake)
  require .orderStatusInvalid (order.status = .pending ∨ order.status = .success)
  require (.evidenceConflict "subscription provider/order/amount mismatch") (e.Matches order)
  let order := order.bound e
  let (settled, order, db) ← recordMoney env id order e (db.saveOrder id order)
  let (granted, db) ← recordAccess env id order e db
  return (settled || granted, db)

/-- The end of access that a terminal event sets: when it was signed, but not in the future. -/
def terminalEnd (eventTimeMillis : ℤ) : ℤ :=
  if 0 < eventTimeMillis ∧ eventTimeMillis / 1000 < env.now then eventTimeMillis / 1000 else env.now

/-- The subscription after a terminal event. -/
def cancelledAt (eventTimeMillis : ℤ) (sub : UserSubscription) : UserSubscription :=
  { sub with
    endTime := if sub.endTime = 0 ∨ terminalEnd env eventTimeMillis < sub.endTime then
      terminalEnd env eventTimeMillis else sub.endTime
    status := .cancelled
    nextResetTime := 0
    updatedAt := env.now }

/-- What `UpdateSubscriptionProviderState` is called with. -/
structure StateChange where
  expectedProvider : String
  providerSubscriptionId : String
  providerState : String
  periodStart : ℤ
  periodEnd : ℤ
  canceledAt : ℤ
  eventTimeMillis : ℤ

/-- The state that is stored. -/
def StateChange.state (c : StateChange) : String :=
  if trimSpace c.providerState = "uncanceled" then "active" else trimSpace c.providerState

/-- The order with a new state. A state never moves the period that was granted. -/
def Order.withState (c : StateChange) : Order :=
  { order with
    providerSubscriptionId := trimSpace c.providerSubscriptionId
    providerSubscriptionState := c.state
    providerEventTimeMillis := c.eventTimeMillis
    currentPeriodStart := if order.currentPeriodStart = 0 ∧ 0 < c.periodStart then c.periodStart
      else order.currentPeriodStart
    currentPeriodEnd := if order.currentPeriodEnd = 0 ∧ 0 < c.periodEnd then c.periodEnd
      else order.currentPeriodEnd }

theorem Order.withState_tradeNo (order : Order) (c : StateChange) :
    (order.withState c).tradeNo = order.tradeNo := by
  simp only [withState]

theorem Order.withState_providerSubscriptionState (order : Order) (c : StateChange) :
    (order.withState c).providerSubscriptionState = c.state := by
  simp only [withState]

theorem Order.withState_providerEventTimeMillis (order : Order) (c : StateChange) :
    (order.withState c).providerEventTimeMillis = c.eventTimeMillis := by
  simp only [withState]

/-- The state is older than what the order has, or would leave a terminal state. -/
def StateChange.Stale (c : StateChange) (order : Order) : Prop :=
  c.eventTimeMillis < order.providerEventTimeMillis ∨
    (0 < c.periodEnd ∧ c.periodEnd < order.currentPeriodEnd) ∨
    (0 < c.eventTimeMillis ∧ c.eventTimeMillis / 1000 < order.currentPeriodStart) ∨
    (subscriptionProviderStateTerminal order.providerSubscriptionState = true ∧
      subscriptionProviderStateTerminal c.state = false)
  deriving Decidable

def updateSubscriptionProviderState (tradeNo : String) (c : StateChange) (db : Db) :
    Except Failure Db := do
  require .invalidData (0 ≤ c.eventTimeMillis ∧ 0 ≤ c.canceledAt)
  let (id, order) ← orFail (db.findOrder tradeNo) .orderNotFound
  require .methodMismatch (c.expectedProvider = "" ∨ order.paymentProvider = c.expectedProvider)
  require (.evidenceConflict "") (trimSpace c.providerSubscriptionId ≠ "" ∧
    (order.providerSubscriptionId = "" ∨
      order.providerSubscriptionId = trimSpace c.providerSubscriptionId))
  if c.Stale order then return db
  else
    let order := order.withState c
    let db := db.saveOrder id order
    if subscriptionProviderStateTerminal c.state = false ∨ order.userSubscriptionId = 0 then return db
    else
      let (sub, _) ← lockUserSubscription db order.userSubscriptionId order.userId
      let sub := cancelledAt env c.eventTimeMillis sub
      downgradeUserGroup (db.saveSubscription order.userSubscriptionId sub)
        order.userSubscriptionId sub env.now

end LmmApi.Recurring
