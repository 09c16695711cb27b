import LmmApi.Recharge.Proportion
import LmmApi.Recharge.Settle

/-!
# Refunds of top-ups

`ApplyPaymentRefund` books a refund that a provider reports in the ledger and takes back from the
wallet the part of the credited quota that the amount is of the amount paid. The id of the event is
the idempotency key; the columns `refundedAmountMicros` and `refundedQuota` of the order add up over
its events. The wallet must cover the debit, otherwise nothing is booked.

What the refund of a top-up shares with that of a subscription order, the request and its row in the
ledger, is here as well.
-/

namespace LmmApi.Recharge

open Guarded Go

variable (env : Env)

/-! ## The request -/

/-- The arguments of `ApplyPaymentRefund`. -/
structure RefundCall where
  tradeNo : String
  amountMicros : ℤ
  currency : String := ""
  providerEventId : String
  paymentMethod : String := ""
  paymentProvider : String
  note : String := ""
  actorId : ℤ

namespace RefundCall

variable (r : RefundCall)

/-- The arguments without space around them, with the default currency. -/
def trimmed : RefundCall :=
  { r with
    tradeNo := trimSpace r.tradeNo
    providerEventId := trimSpace r.providerEventId
    paymentProvider := trimSpace r.paymentProvider
    paymentMethod := trimSpace r.paymentMethod
    currency := if toUpper (trimSpace r.currency) = "" then financeCurrencyUsd
      else toUpper (trimSpace r.currency) }

/-- The checks on the arguments. -/
def Complete : Prop :=
  r.tradeNo ≠ "" ∧ 0 < r.amountMicros ∧ r.providerEventId ≠ "" ∧ r.paymentProvider ≠ "" ∧
    0 < r.actorId ∧ r.amountMicros ≤ maxLedgerMicros
  deriving Decidable

/-- The idempotency key of the event in the ledger. -/
def key : String := s!"{r.paymentProvider}:refund:{r.providerEventId}"

/-- The row of the ledger is that of the request. -/
def Binds (userId : ℕ) (ledger : LedgerEntry) : Prop :=
  refundLedgerBindsRequest ledger r.tradeNo r.providerEventId r.paymentMethod r.paymentProvider
    r.currency userId
  deriving Decidable

/-- The row of the ledger for the refund. -/
def ledgerEntry (userId : ℕ) (now : ℤ) : LedgerEntry where
  entryType := financeEntryRevenue
  category := financeSourceRefund
  amountMicros := r.amountMicros
  currency := r.currency
  direction := financeDirectionDebit
  paymentMethod := r.paymentMethod
  paymentProvider := r.paymentProvider
  userId := some userId
  sourceType := financeSourceRefund
  sourceId := r.providerEventId
  note := bindRefundNote r.note r.tradeNo
  occurredAt := now
  createdBy := r.actorId
  idempotencyKey := r.key

/-- The row that the event has in the ledger. -/
def recorded (ledger : Table LedgerEntry) : Option LedgerEntry :=
  (ledger.first? fun _ l => l.idempotencyKey = r.key).map Prod.snd

/-- The amount that counts: that of the first delivery of the event. -/
def appliedAmount (ledger : Table LedgerEntry) : ℤ :=
  (r.recorded ledger).elim r.amountMicros LedgerEntry.amountMicros

/-- The end of the transaction: an event without a row in the ledger gets one. -/
def book (userId : ℕ) (now : ℤ) (ledger : Table LedgerEntry) : Option (Table LedgerEntry) :=
  if (r.recorded ledger).isSome then some ledger
  else (normalizeFinanceEntry (r.ledgerEntry userId now)).map ledger.insert

end RefundCall

/-! ## Top-ups -/

/-- The amount that was paid for the order. -/
def TopUp.paidMicros (t : TopUp) : ℤ :=
  if t.settledAmountMicros ≤ 0 then expectedTopUpAmountMicros t else t.settledAmountMicros

/-- The quota of a refund is debited only from a wallet that covers it. -/
def debitRefund (db : Db) (userId : ℕ) (refundQuota : ℤ) : Except Failure Db :=
  if 0 < refundQuota then do
    require .refundAmountInvalid (refundQuota ≤ maxWalletQuota)
    let users ← updateWalletQuotaByDelta db.users userId
      (fun u => u.deleted = false ∧ refundQuota ≤ u.quota) (-refundQuota) .refundAmountInvalid
      .refundWalletQuotaInsufficient
    return { db with users }
  else return db

/-- The debit of a refund that has not been applied, and the sums of the order with it. -/
def refundTopUp (id : ℕ) (t : TopUp) (appliedAmount : ℤ) (db : Db) : Except Failure (ℤ × Db) := do
  let remaining := t.paidMicros - t.refundedAmountMicros
  require .refundAmountInvalid (0 < t.paidMicros → ¬remaining < 0 ∧ ¬remaining < appliedAmount)
  let refundQuota := proportionalRefundDelta env.div (normalizedTopUpCreditedQuota env t) t.paidMicros
    t.refundedQuota t.refundedAmountMicros appliedAmount
  let db ← debitRefund db t.userId refundQuota
  return (if 0 < refundQuota then refundQuota else 0, { db with
    topUps := db.topUps.modify id fun _ => { t with
      refundedAmountMicros := t.refundedAmountMicros + appliedAmount
      refundedQuota := t.refundedQuota + refundQuota } })

/-- `ApplyPaymentRefund` of a top-up. An event that is in the ledger was applied if the order has
any refund; otherwise it was booked before refunds took back quota. -/
def applyTopUpRefund (call : RefundCall) (db : Db) : Except Failure (RefundResult × Db) := do
  let r := call.trimmed
  require .invalidData r.Complete
  require .paymentRefundOrderConflict
    ¬(r.paymentProvider = paymentProviderWaffoPancake ∧ r.tradeNo ∈ db.subscriptionTradeNos)
  let (id, t) ← orFail (db.findTopUp r.tradeNo) (.other "refund order disappeared")
  require (.other s!"refund order is not a settled {r.paymentProvider} top-up")
    (t.status = .success ∧ t.paymentProvider = r.paymentProvider)
  require .paymentRefundOrderConflict (∀ l ∈ r.recorded db.ledger, r.Binds t.userId l)
  if (r.recorded db.ledger).isSome ∧ 0 < t.refundedAmountMicros then
    return ({ userId := t.userId, quotaDebited := 0, created := false }, db)
  else
    let (quotaDebited, db') ← refundTopUp env id t (r.appliedAmount db.ledger) db
    let ledger ← orFail (r.book t.userId env.now db.ledger) .financeEntryInvalid
    return ({ userId := t.userId, quotaDebited, created := (r.recorded db.ledger).isNone },
      { db' with ledger })

end LmmApi.Recharge
