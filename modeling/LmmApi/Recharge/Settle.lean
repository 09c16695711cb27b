import LmmApi.Recharge.Discount
import LmmApi.Recharge.Ledger
import LmmApi.Recharge.Quota

/-!
# The settlement of top-ups

A pending order becomes successful by the evidence of its provider (`completeExternalTopUp`) or by
hand (`manualCompleteTopUp`), and in the same transaction its quota is credited to the wallet of its
user. `failPendingTopUpForCheckout` and `updatePendingTopUpStatus` close a pending order.

The provider may repeat its evidence. For an order that has been settled, `completeExternalTopUp`
only adds what was missing of the evidence. Two unique indexes keep an event and a transaction of a
provider from two orders; `Db.Indexed` is what they guarantee, together with the index on trade
numbers.
-/

namespace LmmApi.Recharge

open Guarded Go

variable (env : Env)

/-! ## Tables -/

/-- The columns of the `users` table about contact. -/
structure Contact where
  email : String := ""
  stripeCustomer : String := ""

/-- The tables that settlements and refunds of top-ups use, of subscription orders only the trade
numbers. -/
structure Db where
  users : Table User
  contacts : ℕ → Contact
  topUps : Table TopUp
  discounts : Discounts
  ledger : Table LedgerEntry
  subscriptionTradeNos : List String

namespace Db

/-- The row of a trade number. -/
def findTopUp (db : Db) (tradeNo : String) : Option (ℕ × TopUp) :=
  db.topUps.first? fun _ t => t.tradeNo = tradeNo

/-- A user that is not deleted. -/
def liveUser (db : Db) (id : ℕ) : Option User := (db.users.get? id).filter fun u => !u.deleted

end Db

/-- Two orders with an event or a transaction of one provider in common. NULL is equal to nothing.
-/
def TopUp.Clashes (t t' : TopUp) : Prop :=
  t.paymentProvider = t'.paymentProvider ∧
    ((t.providerEventId ≠ none ∧ t.providerEventId = t'.providerEventId) ∨
      (t.providerTransactionId ≠ none ∧ t.providerTransactionId = t'.providerTransactionId))
  deriving Decidable

variable (db : Db) (t : TopUp) (s : Settlement)

/-- Write a row of the `top_ups` table, under its unique indexes. -/
def Db.saveTopUp (id : ℕ) (t : TopUp) : Except Failure Db := do
  require .uniqueConstraint ¬db.topUps.Any fun j t' => j ≠ id ∧ t'.Clashes t
  return { db with topUps := db.topUps.modify id fun _ => t }

/-! ## Evidence -/

/-- `ExternalTopUpSettlement`. -/
structure Settlement where
  tradeNo : String
  paymentProvider : String
  paymentMethod : String := ""
  settlementCurrency : String := ""
  settledAmountMicros : ℤ
  providerQuotedAmountMicros : ℤ := 0
  providerProductId : String := ""
  providerStoreId : String := ""
  providerEventId : String := ""
  providerTransactionId : String := ""
  stripeCustomer : String := ""
  customerEmail : String := ""
  deriving DecidableEq

def normalizeSettlement : Settlement :=
  { s with
    tradeNo := trimSpace s.tradeNo
    paymentProvider := trimSpace s.paymentProvider
    paymentMethod := trimSpace s.paymentMethod
    settlementCurrency := toUpper (trimSpace s.settlementCurrency)
    providerProductId := trimSpace s.providerProductId
    providerStoreId := trimSpace s.providerStoreId
    providerEventId := trimSpace s.providerEventId
    providerTransactionId := trimSpace s.providerTransactionId
    stripeCustomer := trimSpace s.stripeCustomer
    customerEmail := trimSpace s.customerEmail }

def optionalEvidence (value : String) : Option String :=
  if trimSpace value = "" then none else some (trimSpace value)

def evidenceValue (value : Option String) : String := value.elim "" trimSpace

def callbackProductEvidenceMatches : Prop :=
  t.providerProductId = s.providerProductId ∨
    (t.paymentProvider = paymentProviderWaffoPancake ∧ s.providerProductId = "")
  deriving Decidable

def settlementEvidenceMatches : Prop :=
  t.settledAmountMicros = s.settledAmountMicros ∧
    equalFold (trimSpace t.settlementCurrency) s.settlementCurrency = true ∧
    t.providerStoreId = s.providerStoreId ∧
    evidenceValue t.providerEventId = s.providerEventId ∧
    evidenceValue t.providerTransactionId = s.providerTransactionId ∧
    callbackProductEvidenceMatches t s
  deriving Decidable

def completedSettlementEvidenceCompatible : Prop :=
  ¬(0 < t.settledAmountMicros ∧ t.settledAmountMicros ≠ s.settledAmountMicros) ∧
    ¬(trimSpace t.settlementCurrency ≠ "" ∧ (s.settlementCurrency = "" ∨
      equalFold (trimSpace t.settlementCurrency) s.settlementCurrency = false)) ∧
    (t.providerProductId ≠ "" → callbackProductEvidenceMatches t s) ∧
    (t.providerStoreId = "" ∨ t.providerStoreId = s.providerStoreId) ∧
    (evidenceValue t.providerEventId = "" ∨ evidenceValue t.providerEventId = s.providerEventId) ∧
    (evidenceValue t.providerTransactionId = "" ∨
      evidenceValue t.providerTransactionId = s.providerTransactionId)
  deriving Decidable

/-- The columns of evidence that an update writes. -/
structure EvidenceUpdates where
  settledAmountMicros : Option ℤ
  settlementCurrency : Option String
  providerProductId : Option String
  providerStoreId : Option String
  providerEventId : Option String
  providerTransactionId : Option String
  deriving DecidableEq

/-- `completedSettlementEvidenceUpdates`: what the order lacks and the settlement has. -/
def completedSettlementEvidenceUpdates : EvidenceUpdates where
  settledAmountMicros := if t.settledAmountMicros = 0 then some s.settledAmountMicros else none
  settlementCurrency := if trimSpace t.settlementCurrency = "" ∧ s.settlementCurrency ≠ "" then
    some s.settlementCurrency else none
  providerProductId := if t.providerProductId = "" ∧ s.providerProductId ≠ "" then
    some s.providerProductId else none
  providerStoreId := if t.providerStoreId = "" ∧ s.providerStoreId ≠ "" then
    some s.providerStoreId else none
  providerEventId := if evidenceValue t.providerEventId = "" then
    optionalEvidence s.providerEventId else none
  providerTransactionId := if evidenceValue t.providerTransactionId = "" then
    optionalEvidence s.providerTransactionId else none

def EvidenceUpdates.isEmpty (u : EvidenceUpdates) : Prop := u = ⟨none, none, none, none, none, none⟩
  deriving Decidable

/-- The row with the updates. -/
def TopUp.withEvidence (u : EvidenceUpdates) : TopUp :=
  { t with
    settledAmountMicros := u.settledAmountMicros.getD t.settledAmountMicros
    settlementCurrency := u.settlementCurrency.getD t.settlementCurrency
    providerProductId := u.providerProductId.getD t.providerProductId
    providerStoreId := u.providerStoreId.getD t.providerStoreId
    providerEventId := u.providerEventId <|> t.providerEventId
    providerTransactionId := u.providerTransactionId <|> t.providerTransactionId }

/-- A column of evidence is what the update expects: NULL or blank, or the trimmed value. -/
def EvidenceUnchanged (stored : Option String) : Prop :=
  if evidenceValue stored = "" then stored = none ∨ stored = some ""
  else stored = some (evidenceValue stored)
  deriving Decidable

/-- `completedSettlementEvidenceCAS`, on the row that was read. -/
def completedSettlementEvidenceCAS : Prop :=
  EvidenceUnchanged t.providerEventId ∧ EvidenceUnchanged t.providerTransactionId
  deriving Decidable

/-- `evidenceAlreadyBound`. The second count is made with the query of the first, so it has the
condition on the event as well. -/
def evidenceAlreadyBound : Prop :=
  (s.providerEventId ≠ "" ∧ db.topUps.Any fun _ t =>
    t.paymentProvider = s.paymentProvider ∧ t.tradeNo ≠ s.tradeNo ∧
      t.providerEventId = some s.providerEventId) ∨
  (s.providerTransactionId ≠ "" ∧ db.topUps.Any fun _ t =>
    t.paymentProvider = s.paymentProvider ∧ t.tradeNo ≠ s.tradeNo ∧
      (s.providerEventId ≠ "" → t.providerEventId = some s.providerEventId) ∧
      t.providerTransactionId = some s.providerTransactionId)
  deriving Decidable

/-! ## Credit -/

/-- `creditTopUpQuota`: the wallet, and the contact of the user in the same update. -/
def creditTopUpQuota (userId : ℕ) (creditedQuota : ℤ) (contact : Contact → Contact) :
    Except Failure Db := do
  require .invalidTopUpQuota (0 < creditedQuota ∧ creditedQuota ≤ maxWalletQuota)
  let missed := if (db.liveUser userId).isSome then Failure.topUpQuotaLimitExceeded
    else .recordNotFound
  let users ← updateWalletQuotaByDelta db.users userId (fun u => u.deleted = false) creditedQuota
    .invalidTopUpQuota missed
  return { db with
    users
    contacts := fun id => if id = userId then contact (db.contacts id) else db.contacts id }

def consumeDiscountCodeUsage : Except Failure Db := do
  let discounts ← consumeReservedDiscountCodeUsage env.now t db.discounts
  return { db with discounts }

/-- `releaseDiscountCodeReservationTx`, on all tables. -/
def releaseDiscountCodeReservation (tradeNo : String) : Db :=
  { db with discounts := db.discounts.release tradeNo }

/-! ## External settlement -/

/-- The amount of the settlement is the expected one. Stripe may settle less than it quoted. -/
def Settlement.AmountMatches (expectedAmountMicros : ℤ) : Prop :=
  0 < expectedAmountMicros ∧ if 0 < s.providerQuotedAmountMicros then
      s.paymentProvider = paymentProviderStripe ∧
        s.providerQuotedAmountMicros = expectedAmountMicros ∧
        s.settledAmountMicros ≤ s.providerQuotedAmountMicros
    else expectedAmountMicros = s.settledAmountMicros
  deriving Decidable

/-- The settlement does not contradict what the order has of evidence. -/
def Settlement.Matches (t : TopUp) : Prop :=
  s.AmountMatches (expectedTopUpAmountMicros t) ∧
    ¬(t.settlementCurrency ≠ "" ∧ (s.settlementCurrency = "" ∨
      equalFold t.settlementCurrency s.settlementCurrency = false)) ∧
    ¬(t.providerProductId ≠ "" ∧ t.providerProductId ≠ s.providerProductId ∧
      (t.paymentProvider ≠ paymentProviderWaffoPancake ∨ s.providerProductId ≠ "")) ∧
    ¬(t.providerStoreId ≠ "" ∧ t.providerStoreId ≠ s.providerStoreId)
  deriving Decidable

/-- The branch for an order that has been settled: the missing evidence is added. -/
def bindSettledEvidence (id : ℕ) (t : TopUp) (s : Settlement) (db : Db) :
    Except Failure (TopUp × Db) := do
  require .paymentEvidenceConflict (completedSettlementEvidenceCompatible t s)
  let updates := completedSettlementEvidenceUpdates t s
  if updates.isEmpty then
    require .paymentEvidenceConflict (settlementEvidenceMatches t s)
    return (t, db)
  else
    require .paymentEvidenceConflict ¬evidenceAlreadyBound db s
    require .topUpStatusInvalid (completedSettlementEvidenceCAS t)
    let db ← db.saveTopUp id (t.withEvidence updates)
    return (t.withEvidence updates, db)

/-- The order as its settlement leaves it. -/
def TopUp.settledBy (quota : ℤ) : TopUp :=
  { t with
    creditedQuota := quota
    expectedAmountMicros := expectedTopUpAmountMicros t
    settledAmountMicros := s.settledAmountMicros
    settlementCurrency := s.settlementCurrency
    providerProductId :=
      if t.paymentProvider = paymentProviderWaffoPancake ∧ s.providerProductId = "" then
        t.providerProductId
      else s.providerProductId
    providerStoreId := s.providerStoreId
    providerEventId := optionalEvidence s.providerEventId
    providerTransactionId := optionalEvidence s.providerTransactionId
    completeTime := env.now
    status := .success
    paymentMethod := if s.paymentMethod ≠ "" then s.paymentMethod else t.paymentMethod }

/-- The contact of the user after the settlement: the customer of the provider, and the address if
there was none. -/
def Settlement.contact (c : Contact) : Contact where
  email := if s.customerEmail ≠ "" ∧ c.email = "" then s.customerEmail else c.email
  stripeCustomer := if s.stripeCustomer ≠ "" then s.stripeCustomer else c.stripeCustomer

/-- The branch for a pending order. -/
def settlePending (id : ℕ) (t : TopUp) (s : Settlement) (db : Db) :
    Except Failure (TopUp × Db) := do
  require .topUpStatusInvalid (t.status = .pending)
  require .paymentEvidenceConflict
    ¬(t.paymentProvider = paymentProviderCreem ∧ trimSpace t.settlementCurrency = "")
  require .paymentEvidenceConflict
    ¬(t.paymentProvider = paymentProviderEpay ∧ epayHasImmutableSettlementSnapshot t = false)
  require .paymentEvidenceConflict ¬evidenceAlreadyBound db s
  let quota := normalizedTopUpCreditedQuota env t
  require (.other "无效的充值额度") (0 < quota)
  let t := t.settledBy env s quota
  let db ← db.saveTopUp id t
  require .recordNotFound (s.customerEmail ≠ "" → (db.liveUser t.userId).isSome)
  let db ← creditTopUpQuota db t.userId quota s.contact
  let db ← consumeDiscountCodeUsage env db t
  return (t, db)

/-- The transaction of `completeExternalTopUpOnDB`, for a normalized settlement. -/
def completeExternalTopUpTx (db : Db) : Except Failure (TopUp × Db) := do
  let (id, t) ← orFail (db.findTopUp s.tradeNo) .topUpNotFound
  require .paymentMethodMismatch (t.paymentProvider = s.paymentProvider)
  require .invalidTopUpQuota (ValidWalletQuota t.creditedQuota)
  require .paymentEvidenceConflict (s.Matches t)
  if t.status = .success then bindSettledEvidence id t s db else settlePending env id t s db

/-- `reloadMatchingCompletedSettlement`, where it finds a match. -/
def reloadMatchingCompletedSettlement : Option TopUp :=
  match db.findTopUp s.tradeNo with
  | none => none
  | some (_, t) =>
    if t.status = .success ∧ t.paymentProvider = s.paymentProvider ∧ settlementEvidenceMatches t s
    then some t else none

/-- An error after which the transaction is tried again. -/
def Failure.isRace (f : Failure) : Prop := f = .topUpStatusInvalid ∨ f = .uniqueConstraint
  deriving Decidable

/-- The error that the caller sees. -/
def Failure.reported : Failure → Failure
  | .uniqueConstraint => .paymentEvidenceConflict
  | f => f

/-- `completeExternalTopUpOnDB` with the attempts it has left. Nobody else writes between two
attempts here: a run in which others do has the attempts as steps of their own, and those that fail
change nothing. -/
def completeExternalTopUpOnDB (s : Settlement) (db : Db) : ℕ → Except Failure (TopUp × Db)
  | 0 => .error .invalidData
  | attempts + 1 =>
    match completeExternalTopUpTx env s db with
    | .ok out => .ok out
    | .error f =>
      if f.isRace then
        match reloadMatchingCompletedSettlement db s with
        | some t => .ok (t, db)
        | none =>
          if f = .uniqueConstraint ∨ attempts = 0 then .error f.reported
          else completeExternalTopUpOnDB s db attempts
      else .error f.reported

/-- The settlement names an order, a provider, an amount and an event or a transaction. -/
def Settlement.Complete : Prop :=
  s.tradeNo ≠ "" ∧ s.paymentProvider ≠ "" ∧ 0 < s.settledAmountMicros ∧
    (s.providerEventId ≠ "" ∨ s.providerTransactionId ≠ "")
  deriving Decidable

def completeExternalTopUp (db : Db) : Except Failure (TopUp × Db) := do
  let s := normalizeSettlement s
  require .invalidData s.Complete
  completeExternalTopUpOnDB env s db 5

/-! ## The other operations -/

/-- `TopUp.Insert`: an order, with the use of a discount that it reserves. -/
def insertTopUp (db : Db) : Except Failure Db := do
  let discounts ← reserveDiscountCodeUsage env.now t db.discounts
  require .uniqueConstraint ¬db.topUps.Any fun _ t' => t'.tradeNo = t.tradeNo ∨ t'.Clashes t
  return { db with discounts, topUps := db.topUps.insert t }

/-- `ManualCompleteTopUp`: whether the order was completed now. -/
def manualCompleteTopUp (tradeNo : String) (db : Db) : Except Failure (Bool × Db) := do
  require (.other "未提供订单号") (tradeNo ≠ "")
  let (id, t) ← orFail (db.findTopUp tradeNo) (.other "充值订单不存在")
  if t.status = .success then return (false, db)
  else
    require (.other "订单状态不是待支付，无法补单") (t.status = .pending)
    let quota := normalizedTopUpCreditedQuota env t
    require (.other "无效的充值额度") (0 < quota ∧ quota ≤ maxWalletQuota)
    let t := { t with creditedQuota := quota, completeTime := env.now, status := .success }
    let db ← db.saveTopUp id t
    let db ← creditTopUpQuota db t.userId quota fun c => c
    let db ← consumeDiscountCodeUsage env db t
    return (true, db)

/-- The reasons that `FailPendingTopUpForCheckout` accepts. -/
def paymentOrderFailureReasons : List String :=
  ["company_billing_required_fields", "company_billing_preview_unavailable",
    "company_billing_rules_invalid"]

/-- `FailPendingTopUpForCheckout`. The reservation is released for an order with a discount only. -/
def failPendingTopUpForCheckout (tradeNo expectedPaymentProvider reason : String) (db : Db) :
    Except Failure Db := do
  let tradeNo := trimSpace tradeNo
  let provider := trimSpace expectedPaymentProvider
  require (.other "未提供支付单号") (tradeNo ≠ "")
  require .paymentMethodMismatch (provider ≠ "")
  require .invalidPaymentFailureReason (reason ∈ paymentOrderFailureReasons)
  let (id, t) ← orFail (db.findTopUp tradeNo) .topUpNotFound
  require .paymentMethodMismatch (t.paymentProvider = provider)
  require .topUpStatusInvalid (t.status = .pending)
  let db ← db.saveTopUp id
    { t with status := .failed, completeTime := env.now, failureReasonCode := reason }
  return if t.discountCodeId ≠ 0 then releaseDiscountCodeReservation db tradeNo else db

def updatePendingTopUpStatus (tradeNo expectedPaymentProvider : String) (targetStatus : OrderStatus)
    (db : Db) : Except Failure Db := do
  require (.other "未提供支付单号") (tradeNo ≠ "")
  let (id, t) ← orFail (db.findTopUp tradeNo) .topUpNotFound
  require .paymentMethodMismatch
    (expectedPaymentProvider = "" ∨ t.paymentProvider = expectedPaymentProvider)
  require .topUpStatusInvalid (t.status = .pending)
  let db ← db.saveTopUp id { t with status := targetStatus }
  return if targetStatus ≠ .pending ∧ targetStatus ≠ .success then
    releaseDiscountCodeReservation db t.tradeNo else db

end LmmApi.Recharge
