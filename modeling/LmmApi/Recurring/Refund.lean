import LmmApi.Recharge.Proportion
import LmmApi.Recurring.Grant

/-!
# Refunds of recurring payments

A refund of a recurring order belongs to one payment. It is booked in the ledger, and if the payment
carries the period that the order has now, it takes back the quota of the subscription in
proportion. A full refund, or one that leaves no quota, cancels the subscription.
-/

namespace LmmApi.Recurring

open Guarded Go
open Recharge

variable (env : Env)

/-- `SubscriptionPaymentRefundRequest`. -/
structure RefundRequest where
  tradeNo : String
  providerTransactionId : String
  providerEventId : String
  paymentMethod : String
  paymentProvider : String
  currency : String
  note : String := ""
  amountMicros : ℤ
  actorId : ℤ

variable (db : Db) (id : ℕ) (r : RefundRequest) (order : Order) (payment : PaymentEvent)

/-- The texts of the request without space around them. -/
def RefundRequest.trimmed : RefundRequest :=
  { r with
    tradeNo := trimSpace r.tradeNo
    providerTransactionId := trimSpace r.providerTransactionId
    providerEventId := trimSpace r.providerEventId
    paymentMethod := trimSpace r.paymentMethod
    paymentProvider := trimSpace r.paymentProvider
    currency := toUpper (trimSpace r.currency) }

def RefundRequest.normalize : Except Failure RefundRequest := do
  let r := r.trimmed
  require .refundPaymentRequired (r.providerTransactionId ≠ "")
  require .invalidData (r.tradeNo ≠ "" ∧ r.providerEventId ≠ "" ∧ r.paymentProvider ≠ "" ∧
    r.paymentMethod ≠ "" ∧ r.currency ≠ "" ∧ 0 < r.amountMicros ∧
    r.amountMicros ≤ maxLedgerMicros ∧ 0 < r.actorId)
  return r

/-- The idempotency key of the request in the ledger. -/
def RefundRequest.key : String := s!"{r.paymentProvider}:refund:{r.providerEventId}"

/-- The row of the ledger is that of the request. -/
def RefundRequest.Binds (ledger : LedgerEntry) : Prop :=
  refundLedgerBindsRequest ledger r.tradeNo r.providerEventId r.paymentMethod r.paymentProvider
    r.currency order.userId
  deriving Decidable

def subscriptionRefundReplay (paymentId : ℕ) (r : RefundRequest) : Except Failure Bool :=
  match db.refunds.first? (fun _ p => p.paymentProvider = r.paymentProvider ∧
      p.providerEventId = r.providerEventId) with
  | none => return false
  | some (_, previous) => do
    require .refundOrderConflict (previous.orderId = id ∧ previous.paymentEventId = paymentId ∧
      previous.currency = r.currency ∧ previous.amountMicros = r.amountMicros)
    let ledger ← orFail (db.ledger.get? previous.ledgerEntryId) .recordNotFound
    require .refundOrderConflict (r.Binds order ledger ∧
      ledger.amountMicros = previous.amountMicros ∧ ledger.direction = financeDirectionDebit ∧
      ledger.entryType = financeEntryRevenue ∧ ledger.category = financeSourceRefund)
    return true

def rejectUnboundSubscriptionRefunds (r : RefundRequest) : Except Failure Unit :=
  match db.ledger.first? (fun _ l => l.idempotencyKey = r.key) with
  | some (_, existing) => do
    require .refundOrderConflict (r.Binds order existing)
    .error .reconciliationRequired
  | none =>
    require .reconciliationRequired ¬db.ledger.Any fun j l =>
      l.userId = some order.userId ∧ l.paymentProvider = r.paymentProvider ∧
        l.sourceType = financeSourceRefund ∧ (¬db.refunds.Any fun _ p => p.ledgerEntryId = j) ∧
        (refundNoteContainsTradeNo l.note order.tradeNo = true ∨
          refundNoteHasOrderBinding l.note = false)

/-- The amount and the quota that the refunds of a payment have taken back. -/
def Db.refundTotals (paymentId : ℕ) : ℤ × ℤ :=
  (db.refunds.sum fun _ p => if p.paymentEventId = paymentId then p.amountMicros else 0,
    db.refunds.sum fun _ p => if p.paymentEventId = paymentId then p.quotaRevoked else 0)

def subscriptionRefundHasInlinePeriod : Except Failure Bool :=
  if payment.periodStart ≤ 0 ∨ payment.periodEnd ≤ payment.periodStart then return false
  else match db.payments.first? (fun _ raw => raw.orderId = payment.orderId ∧
      raw.paymentId = payment.providerTransactionId) with
  | none => return false
  | some (_, raw) => do
    require (.evidenceConflict "") (raw.currency = payment.settlementCurrency ∧
      raw.amountMicros = payment.settlementAmountMicros)
    if raw.periodStart = 0 ∧ raw.periodEnd = 0 then return false
    else
      require .reconciliationRequired
        (raw.periodStart = payment.periodStart ∧ raw.periodEnd = payment.periodEnd)
      return true

/-- The quota that is left after refunds of `refundedMicros`. Quota that was used stays. -/
def remainingTotal (plan : Plan) (payment : PaymentEvent) (refundedMicros : ℤ)
    (sub : UserSubscription) : ℤ :=
  if 0 < plan.totalAmount then
    let target := plan.totalAmount -
      proportionalRefundTarget env.div plan.totalAmount payment.settlementAmountMicros refundedMicros
    min sub.amountTotal (max target sub.amountUsed)
  else sub.amountTotal

/-- The subscription after refunds of `refundedMicros`. -/
def revokedSubscription (plan : Plan) (payment : PaymentEvent) (refundedMicros : ℤ)
    (sub : UserSubscription) : UserSubscription :=
  let newTotal := remainingTotal env plan payment refundedMicros sub
  if refundedMicros = payment.settlementAmountMicros ∨
      (0 < plan.totalAmount ∧ newTotal ≤ sub.amountUsed) then
    { sub with
      amountTotal := newTotal
      status := .cancelled
      nextResetTime := 0
      updatedAt := env.now }
  else { sub with amountTotal := newTotal, updatedAt := env.now }

/-- A cancelled subscription gives back its group. -/
def restoreGroup (sub : UserSubscription) (db : Db) : Except Failure Db :=
  if sub.status = .cancelled then downgradeUserGroup db id sub env.now else return db

/-- `revokeSubscriptionPaymentQuotaTx`: the quota that was taken back. -/
def revokeSubscriptionPaymentQuota (refundedMicros : ℤ) (db : Db) : Except Failure (ℤ × Db) :=
  match order.planSnapshot with
  | .frozen plan => do
    require .reconciliationRequired (0 ≤ plan.totalAmount)
    let (sub, _) ← lockUserSubscription db order.userSubscriptionId order.userId
    let revoked := revokedSubscription env plan payment refundedMicros sub
    let quotaRevoked := sub.amountTotal - revoked.amountTotal
    let db ← restoreGroup env order.userSubscriptionId revoked
      ((db.saveSubscription order.userSubscriptionId revoked).saveOrder id { order with
        refundedAmountMicros := refundedMicros
        refundedQuota := order.refundedQuota + quotaRevoked })
    return (quotaRevoked, db)
  | _ => .error .reconciliationRequired

/-- The row of the ledger for a refund. -/
def RefundRequest.ledgerEntry (now : ℤ) : LedgerEntry where
  entryType := financeEntryRevenue
  category := financeSourceRefund
  amountMicros := r.amountMicros
  currency := r.currency
  direction := financeDirectionDebit
  paymentMethod := r.paymentMethod
  paymentProvider := r.paymentProvider
  userId := some order.userId
  sourceType := financeSourceRefund
  sourceId := r.providerEventId
  note := bindRefundNote r.note order.tradeNo
  occurredAt := now
  createdBy := r.actorId
  idempotencyKey := r.key

/-- `insertSubscriptionPaymentRefundTx`. The key of the ledger was looked up before, and the key of
the refund too. -/
def insertSubscriptionPaymentRefund (paymentId : ℕ) (r : RefundRequest)
    (quotaRevoked : ℤ) (db : Db) : Except Failure Db := do
  let entry ← orFail (normalizeFinanceEntry (r.ledgerEntry order env.now))
    (.other "finance entry is invalid")
  return { db with
    ledger := db.ledger.insert entry
    refunds := db.refunds.insert {
      orderId := id
      paymentEventId := paymentId
      paymentProvider := r.paymentProvider
      providerEventId := r.providerEventId
      currency := r.currency
      amountMicros := r.amountMicros
      quotaRevoked
      ledgerEntryId := db.ledger.next } }

/-- The payment can be refunded in the currency. -/
def PaymentEvent.Refundable (currency : String) : Prop :=
  payment.settlementCurrency = currency ∧ 0 < payment.settlementAmountMicros ∧
    0 ≤ payment.periodStart ∧ (payment.periodStart = 0 ↔ payment.periodEnd = 0) ∧
    (payment.periodEnd = 0 ∨ payment.periodStart < payment.periodEnd)
  deriving Decidable

/-- The payment is that of the period that the order has now. -/
def Order.CurrentPayment : Prop :=
  0 < order.userSubscriptionId ∧ order.currentPeriodStart = payment.periodStart ∧
    order.currentPeriodEnd = payment.periodEnd
  deriving Decidable

/-- The quota that a refund takes back: none unless it is for the current period. -/
def revokeIfCurrent (paymentId : ℕ) (payment : PaymentEvent)
    (r : RefundRequest) (db : Db) : Except Failure (ℤ × Db) := do
  let totals := db.refundTotals paymentId
  require .refundAmountInvalid (0 ≤ totals.1 ∧ totals.1 ≤ payment.settlementAmountMicros ∧
    r.amountMicros ≤ payment.settlementAmountMicros - totals.1)
  let inlinePeriod ← subscriptionRefundHasInlinePeriod db payment
  if inlinePeriod = true ∧ order.CurrentPayment payment then
    require .reconciliationRequired
      (order.refundedAmountMicros = totals.1 ∧ order.refundedQuota = totals.2)
    revokeSubscriptionPaymentQuota env id order payment (totals.1 + r.amountMicros) db
  else return (0, db)

def applySubscriptionPaymentRefund (request : RefundRequest) (db : Db) :
    Except Failure (RefundResult × Db) := do
  let r ← request.normalize
  let (id, order) ← orFail (db.findOrder r.tradeNo) .recordNotFound
  require (.evidenceConflict "") (order.status = .success ∧
    order.paymentProvider = r.paymentProvider ∧ order.paymentMethod = r.paymentMethod)
  let (paymentId, payment) ← orFail (db.paymentEvents.first? fun _ p => p.orderId = id ∧
    p.paymentProvider = r.paymentProvider ∧ p.providerTransactionId = r.providerTransactionId)
    .recordNotFound
  require (.evidenceConflict "") (payment.Refundable r.currency)
  let replayed ← subscriptionRefundReplay db id order paymentId r
  if replayed = true then return ({ userId := order.userId, quotaDebited := 0, created := false }, db)
  else
    rejectUnboundSubscriptionRefunds db order r
    let (quotaRevoked, db) ← revokeIfCurrent env id order paymentId payment r db
    let db ← insertSubscriptionPaymentRefund env id order paymentId r quotaRevoked db
    return ({ userId := order.userId, quotaDebited := quotaRevoked, created := true }, db)

end LmmApi.Recurring
