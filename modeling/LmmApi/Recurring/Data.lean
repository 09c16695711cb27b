import LmmApi.Recharge.Ledger
import LmmApi.Subscription.Reset

/-!
# Recurring subscription orders

A subscription order keeps the plan as it was bought, and the period that its provider has last
granted. Payments and periods of an order arrive as events of the provider, in any order and any
number of times, and each is kept as a row. A user subscription is the grant of quota that the order
leads to.

The logs and the caches that follow a transaction are left out, and so are the columns that no
modelled function reads.
-/

namespace LmmApi.Recurring

open Recharge (LedgerEntry OrderStatus TopUp)
open Subscription (SubscriptionStatus)

/-! ## Rows -/

/-- `SubscriptionPlan`. The plan is archived or disabled without effect on orders. -/
structure Plan extends Subscription.SubscriptionPlan where
  id : ℕ
  priceAmount : ℚ
  durationUnit : String
  durationValue : ℤ
  customSeconds : ℤ
  maxPurchasePerUser : ℤ
  upgradeGroup : String
  downgradeGroup : String
  /-- Zero for unlimited quota. -/
  totalAmount : ℤ
  allowWalletOverflow : Option Bool
  waffoPancakeProductType : String := ""
  deriving DecidableEq

/-- What the column `plan_snapshot` decodes to. -/
inductive Snapshot
  | blank
  | malformed
  | frozen (plan : Plan)
  deriving DecidableEq

/-- `SubscriptionOrder`. -/
structure Order where
  userId : ℕ
  planId : ℕ
  money : ℚ
  tradeNo : String
  paymentMethod : String
  paymentProvider : String
  userSubscriptionId : ℕ := 0
  refundedAmountMicros : ℤ := 0
  refundedQuota : ℤ := 0
  status : OrderStatus := .pending
  createTime : ℤ := 0
  completeTime : ℤ := 0
  planSnapshot : Snapshot
  expectedAmountMicros : ℤ
  settlementCurrency : String
  providerSubscriptionId : String := ""
  providerSubscriptionState : String := ""
  providerEventTimeMillis : ℤ := 0
  currentPeriodStart : ℤ := 0
  currentPeriodEnd : ℤ := 0
  providerPayload : String := ""
  deriving DecidableEq

/-- The order without what the events of its provider change. -/
def Order.terms (o : Order) : Order :=
  { o with
    refundedAmountMicros := 0
    refundedQuota := 0
    providerSubscriptionId := ""
    providerSubscriptionState := ""
    providerEventTimeMillis := 0
    currentPeriodStart := 0
    currentPeriodEnd := 0 }

/-- `UserSubscription`, with the columns that billing does not read. -/
structure UserSubscription extends Subscription.UserSubscription where
  upgradeGroup : String
  prevUserGroup : String
  downgradeGroup : String
  updatedAt : ℤ
  deriving DecidableEq

/-- The part of a user that subscriptions change. -/
structure User where
  group : String
  deleted : Bool

/-- `SubscriptionPaymentEvent`: the receipt of a payment, with the period that came with it. A
payment without a period has NULL for both boundaries. -/
structure PaymentEvent where
  orderId : ℕ
  paymentProvider : String
  providerEventId : String
  providerTransactionId : String
  settlementCurrency : String
  settlementAmountMicros : ℤ
  period : Option (ℤ × ℤ)
  createdTime : ℤ

/-- NULL boundaries read as zero. -/
def PaymentEvent.periodStart (e : PaymentEvent) : ℤ := e.period.elim 0 Prod.fst

@[inherit_doc PaymentEvent.periodStart]
def PaymentEvent.periodEnd (e : PaymentEvent) : ℤ := e.period.elim 0 Prod.snd

/-- `WaffoPancakeSubscriptionPayment`: a payment as the provider has sent it, with zero for a
missing period. -/
structure WaffoPayment where
  orderId : ℕ
  eventId : String
  providerOrderId : String
  paymentId : String
  currency : String
  amountMicros : ℤ
  paymentDate : ℤ
  periodStart : ℤ
  periodEnd : ℤ

/-- `WaffoPancakeSubscriptionPeriod`: a period that the provider has attested. -/
structure WaffoPeriod where
  orderId : ℕ
  eventId : String
  eventType : String
  providerOrderId : String
  billingPeriod : String
  currency : String
  amountMicros : ℤ
  periodStart : ℤ
  periodEnd : ℤ

/-- `SubscriptionPaymentRefund`. -/
structure PaymentRefund where
  orderId : ℕ
  paymentEventId : ℕ
  paymentProvider : String
  providerEventId : String
  currency : String
  amountMicros : ℤ
  quotaRevoked : ℤ
  ledgerEntryId : ℕ

/-! ## Tables -/

/-- The tables of subscription orders. -/
structure Db where
  users : Table User
  orders : Table Order
  subscriptions : Table UserSubscription
  paymentEvents : Table PaymentEvent
  payments : Table WaffoPayment
  periods : Table WaffoPeriod
  refunds : Table PaymentRefund
  ledger : Table LedgerEntry
  topUps : Table TopUp

/-- What a transaction reads besides the tables: the clock, the plans, the offset from UTC in which
reset times are aligned, the division of micros in `float64`, and the quotients of decimals. -/
structure Env where
  now : ℤ
  plans : ℕ → Option Plan
  utcOffset : ℤ
  moneyOfMicros : ℤ → ℚ
  div : ℤ → ℤ → ℚ

/-- An error. -/
inductive Failure
  /-- `gorm.ErrRecordNotFound`. -/
  | recordNotFound
  /-- `gorm.ErrInvalidData`. -/
  | invalidData
  /-- `ErrSubscriptionOrderNotFound`. -/
  | orderNotFound
  /-- `ErrSubscriptionOrderStatusInvalid`. -/
  | orderStatusInvalid
  /-- `ErrSubscriptionPlanChanged`. -/
  | planChanged
  /-- `ErrPaymentMethodMismatch`. -/
  | methodMismatch
  /-- `ErrPaymentEvidenceConflict`, with the text it is wrapped in. -/
  | evidenceConflict (message : String)
  /-- `ErrSubscriptionRefundPaymentRequired`. -/
  | refundPaymentRequired
  /-- `ErrSubscriptionRefundReconciliationRequired`. -/
  | reconciliationRequired
  /-- `ErrPaymentRefundOrderConflict`. -/
  | refundOrderConflict
  /-- `ErrRefundAmountInvalid`. -/
  | refundAmountInvalid
  | other (message : String)
  deriving DecidableEq

/-- The order of a trade number. -/
def Db.findOrder (db : Db) (tradeNo : String) : Option (ℕ × Order) :=
  db.orders.first? fun _ o => o.tradeNo = tradeNo

/-- Save an order. -/
def Db.saveOrder (db : Db) (id : ℕ) (order : Order) : Db :=
  { db with orders := db.orders.modify id fun _ => order }

theorem Db.findOrder_saveOrder {db : Db} {tradeNo : String} {id : ℕ} {order order' : Order}
    (h : db.findOrder tradeNo = some (id, order)) (hname : order'.tradeNo = order.tradeNo) :
    (db.saveOrder id order').findOrder tradeNo = some (id, order') :=
  Table.first?_modify h (hname.trans (Table.first?_eq_some h).2)

/-- Save a subscription. -/
def Db.saveSubscription (db : Db) (id : ℕ) (sub : UserSubscription) : Db :=
  { db with subscriptions := db.subscriptions.modify id fun _ => sub }

end LmmApi.Recurring
