import LmmApi.Recurring.Grant

/-!
# Recurring payments

`applySubscriptionPaymentEvent` handles one payment of a settled order. The payment is recorded
once: the event, the transaction and the period of the order each identify it. The first payment
sets the period of the subscription that the order was settled with, and a payment for a later
period than all before it starts a new grant. A payment for an earlier period is only recorded.
-/

namespace LmmApi.Recurring

open Guarded Go
open Subscription (SubscriptionStatus)

variable (env : Env)

/-- The `SubscriptionPaymentEvent` that a caller passes. -/
structure PaymentEvidence where
  paymentProvider : String
  providerEventId : String
  providerTransactionId : String
  settlementCurrency : String
  settlementAmountMicros : ℤ
  periodStart : ℤ
  periodEnd : ℤ
  createdTime : ℤ := 0
  deriving DecidableEq

/-- The texts of the evidence without space around them. -/
def PaymentEvidence.trimmed (e : PaymentEvidence) : PaymentEvidence :=
  { e with
    paymentProvider := trimSpace e.paymentProvider
    providerEventId := trimSpace e.providerEventId
    providerTransactionId := trimSpace e.providerTransactionId
    settlementCurrency := toUpper (trimSpace e.settlementCurrency) }

/-- The evidence has all it needs. -/
def PaymentEvidence.Complete (e : PaymentEvidence) : Prop :=
  e.paymentProvider ≠ "" ∧ e.providerEventId ≠ "" ∧ e.providerTransactionId ≠ "" ∧
    e.settlementCurrency ≠ "" ∧ 0 < e.settlementAmountMicros ∧ e.periodStart < e.periodEnd
  deriving Decidable

/-- The row of a payment. -/
def PaymentEvidence.row (e : PaymentEvidence) (orderId : ℕ) (now : ℤ) : PaymentEvent where
  orderId
  paymentProvider := e.paymentProvider
  providerEventId := e.providerEventId
  providerTransactionId := e.providerTransactionId
  settlementCurrency := e.settlementCurrency
  settlementAmountMicros := e.settlementAmountMicros
  period := some (e.periodStart, e.periodEnd)
  createdTime := if e.createdTime = 0 then now else e.createdTime

/-- The row has one of the keys of the payment. -/
def PaymentEvent.SharesKey (orderId : ℕ) (e : PaymentEvidence) (r : PaymentEvent) : Prop :=
  r.providerEventId = e.providerEventId ∨
    (r.paymentProvider = e.paymentProvider ∧ r.providerTransactionId = e.providerTransactionId) ∨
    (r.orderId = orderId ∧ r.period.map Prod.snd = some e.periodEnd)
  deriving Decidable

/-- The row is that of the payment. Its event id is not compared. -/
def PaymentEvent.Records (orderId : ℕ) (e : PaymentEvidence) (r : PaymentEvent) : Prop :=
  r.orderId = orderId ∧ r.paymentProvider = e.paymentProvider ∧
    r.providerTransactionId = e.providerTransactionId ∧
    r.settlementCurrency = e.settlementCurrency ∧
    r.settlementAmountMicros = e.settlementAmountMicros ∧ r.periodStart = e.periodStart ∧
    r.periodEnd = e.periodEnd
  deriving Decidable

/-- The periods of the payments of an order: how many payments there are, and the greatest end of a
period, zero if there is none. -/
def Db.priorPayments (db : Db) (orderId : ℕ) : ℕ × ℤ :=
  let rows := (db.paymentEvents.rows.map Prod.snd).filter fun r => r.orderId = orderId
  (rows.length, (rows.filterMap fun r => r.period.map Prod.snd).max?.getD 0)

/-- The plan that a renewal grants: the frozen one, or that of the table. -/
def renewalPlan (order : Order) : Except Failure Plan :=
  match order.planSnapshot with
  | .blank => orFail (env.plans order.planId) .recordNotFound
  | .malformed => .error (.other "decode subscription plan snapshot")
  | .frozen plan => return plan

/-- The subscription and the order after a payment whose period has ended already. Only the first
one touches the subscription. -/
def applyEndedPayment (isFirst : Bool) (e : PaymentEvidence) (providerSubscriptionId : String)
    (id : ℕ) (order : Order) (sub : UserSubscription) (db : Db) : Except Failure Db := do
  let db ← if isFirst = true then
      let sub := { sub with
        startTime := e.periodStart
        endTime := e.periodEnd
        status := .expired
        nextResetTime := 0
        updatedAt := env.now }
      downgradeUserGroup (db.saveSubscription order.userSubscriptionId sub)
        order.userSubscriptionId sub env.now
    else pure db
  return db.saveOrder id { order with
    providerSubscriptionId := trimSpace providerSubscriptionId
    currentPeriodStart := e.periodStart
    currentPeriodEnd := e.periodEnd }

/-- The subscription with the period of the first payment. -/
def firstPeriod (plan : Plan) (e : PaymentEvidence) (sub : UserSubscription) : UserSubscription :=
  let next := Subscription.calcNextResetTime env.utcOffset e.periodStart plan.toSubscriptionPlan
    e.periodEnd
  { sub with
    startTime := e.periodStart
    endTime := e.periodEnd
    nextResetTime := next
    lastResetTime := if 0 < next then e.periodStart else sub.lastResetTime
    updatedAt := env.now }

/-- The subscription with the new grant of a renewal. The quota of the plan is restored if it is
limited. -/
def renewedPeriod (plan : Plan) (e : PaymentEvidence) (sub : UserSubscription) : UserSubscription :=
  let next := Subscription.calcNextResetTime env.utcOffset e.periodStart plan.toSubscriptionPlan
    e.periodEnd
  { sub with
    endTime := e.periodEnd
    amountUsed := 0
    quotaVersion := sub.quotaVersion + 1
    amountTotal := if 0 < plan.totalAmount then plan.totalAmount else sub.amountTotal
    status := .active
    lastResetTime := e.periodStart
    nextResetTime := if next = 0 ∨ e.periodEnd < next then e.periodEnd else next
    updatedAt := env.now }

/-- The order with the period of a payment. -/
def Order.paid (order : Order) (e : PaymentEvidence) (providerSubscriptionId state : String) :
    Order :=
  { order with
    providerSubscriptionId := trimSpace providerSubscriptionId
    providerSubscriptionState := trimSpace state
    currentPeriodStart := e.periodStart
    currentPeriodEnd := e.periodEnd }

/-- The new grant of a payment: the first one sets the period, a later one renews. A payment that
the caller calls a renewal renews even if it is the first one. -/
def applyGrant (isFirst renewal : Bool) (plan : Plan) (e : PaymentEvidence)
    (providerSubscriptionId state : String) (id : ℕ) (order : Order) (sub : UserSubscription)
    (user : User) (db : Db) : Db :=
  let sub := { sub with
    startTime := if sub.startTime = 0 ∨ isFirst = true then e.periodStart else sub.startTime }
  let sub := if isFirst = true then firstPeriod env plan e sub else sub
  if isFirst = false ∨ renewal = true then
    let sub := renewedPeriod env plan e sub
    let order := { order with refundedAmountMicros := 0, refundedQuota := 0 }
    ((db.upgradeUserGroup sub user).saveSubscription order.userSubscriptionId sub).saveOrder id
      (order.paid e providerSubscriptionId state)
  else
    (db.saveSubscription order.userSubscriptionId sub).saveOrder id
      (order.paid e providerSubscriptionId state)

/-- The access that a recorded payment gives. -/
def grantPayment (renewal : Bool) (plan : Plan) (prior : ℕ × ℤ) (e : PaymentEvidence)
    (providerSubscriptionId state : String) (id : ℕ) (order : Order) (db : Db) :
    Except Failure Db := do
  let (sub, user) ← lockUserSubscription db order.userSubscriptionId order.userId
  if sub.status = .cancelled ∧ e.periodStart ≤ sub.updatedAt then return db
  else if e.periodEnd ≤ env.now then
    applyEndedPayment env (prior.1 = 0) e providerSubscriptionId id order sub db
  else
    return applyGrant env (prior.1 = 0) renewal plan e providerSubscriptionId state id order sub
      user db

/-- `applySubscriptionPaymentEventTx`. The unique indexes of the table do not fail, since the keys
were looked up before. -/
def applySubscriptionPaymentEventTx (tradeNo : String) (evidence : PaymentEvidence)
    (providerSubscriptionId state : String) (renewal : Bool) (db : Db) : Except Failure Db := do
  require (.other "invalid subscription payment event") (trimSpace tradeNo ≠ "")
  let e := evidence.trimmed
  require (.other "incomplete subscription payment evidence") e.Complete
  let (id, order) ← orFail (db.findOrder tradeNo) .orderNotFound
  require .methodMismatch (order.paymentProvider = e.paymentProvider)
  require .orderStatusInvalid (order.status = .success ∧ 0 < order.userSubscriptionId)
  let plan ← renewalPlan env order
  require (.other "subscription settlement amount mismatch") (order.expectedAmountMicros ≤ 0 ∨
    order.expectedAmountMicros = e.settlementAmountMicros)
  require (.other "subscription settlement currency mismatch")
    (toUpper (trimSpace order.settlementCurrency) = "" ∨
      toUpper (trimSpace order.settlementCurrency) = e.settlementCurrency)
  if db.paymentEvents.Any fun _ r => r.SharesKey id e ∧ r.Records id e then return db
  else
    require (.evidenceConflict "conflicting recurring subscription payment evidence")
      ¬db.paymentEvents.Any fun _ r => r.SharesKey id e
    let prior := db.priorPayments id
    let db := { db with paymentEvents := db.paymentEvents.insert (e.row id env.now) }
    if 0 < prior.1 ∧ e.periodEnd ≤ prior.2 then return db
    else grantPayment env renewal plan prior e providerSubscriptionId state id order db

def applySubscriptionPaymentEvent (tradeNo : String) (evidence : PaymentEvidence)
    (providerSubscriptionId state : String) (db : Db) : Except Failure Db :=
  applySubscriptionPaymentEventTx env tradeNo evidence providerSubscriptionId state false db

end LmmApi.Recurring
