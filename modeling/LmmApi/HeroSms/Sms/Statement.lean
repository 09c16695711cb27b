import LmmApi.HeroSms.Sms.Data
import Mathlib.Data.List.Sort

/-!
# The database statements on orders of telephone numbers

Every process of the platform works on the orders through these statements, each of which is one
transaction or one conditional update. A transaction that fails leaves the database as it is. The
conditional updates that leave the indexed columns alone are `update`: it changes the row `id` if
the row satisfies the condition, and tells whether there was one.
-/

namespace LmmApi.HeroSms.Sms

open Guarded Go

/-- `ORDER_STATE_CHANGED`. -/
def stateChanged : HeroError := ⟨409, "ORDER_STATE_CHANGED", "HeroSMS SMS order state changed"⟩

def priceExceeded : HeroError :=
  ⟨409, "PRICE_CHANGED", "HeroSMS SMS price exceeded the confirmed quote"⟩

namespace Db

variable (db : Db) (id : ℕ)

/-- `UPDATE … WHERE id = ? AND …`, `none` if no row is affected. -/
def update (p : Order → Prop) [DecidablePred p] (f : Order → Order)
    (hf : ∀ o, (f o).keys = o.keys) : Option Db :=
  ((db.orders.get? id).filter fun o => p o).map fun _ =>
    { db with orders := db.orders.modify id f hf }

/-! ## Creation -/

inductive Replay
  | missed
  | mismatch
  | found (id : ℕ) (order : Order)

/-- `replayHeroSMSSMSIdempotentOrder`. -/
def replay (user : ℕ) (idempotencyHash payloadHash : String) : Replay :=
  match db.orders.first? fun _ o =>
    o.userId = user ∧ o.idempotencyKeyHash = idempotencyHash with
  | none => .missed
  | some (id, o) => if o.requestPayloadHash ≠ payloadHash then .mismatch else .found id o

/-- `reserveHeroSMSSMSQuota`: the new order with its id. -/
def reserve (db : Db) (order : Order) : Except Failure (ℕ × Db) := do
  let user ← activeUser db.users order.userId
  require (.hero ⟨402, "TEMPORARY_SMS_MINIMUM_BALANCE",
    "Temporary SMS purchases require a balance of at least USD 10"⟩)
    (db.settings.trustQuota ≤ user.quota)
  require (.hero ⟨402, "INSUFFICIENT_BALANCE", "insufficient quota balance"⟩)
    (order.chargeQuota ≤ user.quota)
  let users ← updateWalletQuotaByDelta db.users order.userId
    (fun u => u.deleted = false ∧ db.settings.trustQuota ≤ u.quota ∧ order.chargeQuota ≤ u.quota)
    (-order.chargeQuota) (.hero ⟨402, "INSUFFICIENT_BALANCE", "insufficient quota balance"⟩)
    (.hero ⟨402, "INSUFFICIENT_BALANCE", "insufficient quota balance"⟩)
  let id := db.orders.table.next
  let orders ← orFail (db.orders.insert? order) .uniqueConstraint
  let ledger ← orFail (db.ledger.insert?
    ⟨order.userId, id, -order.chargeQuota, .reserve id⟩) .uniqueConstraint
  return (id, { db with users, orders, ledger })

/-- The columns that the mark of a purchase attempt writes. -/
def startedRow (now : ℤ) (o : Order) : Order :=
  { o with
    status := .purchaseUnknown
    lastErrorCode := "PROVIDER_ATTEMPT_STARTED"
    lastErrorMessage := "provider purchase attempt may have started"
    updatedAt := now }

/-- The mark of the purchase attempt, an update without a condition. -/
def markStarted : Db := { db with orders := db.orders.modify id (startedRow db.now) fun _ => rfl }

/-! ## The outcome of a purchase -/

/-- The claim of `rejectHeroSMSSMSActivation`. The provider id of another order is refused. -/
def reject (activationId : String) (e : HeroError) : Except Failure Db := do
  let o ← orFail ((db.orders.get? id).filter fun o => o.status = .purchaseUnknown)
    (.hero stateChanged)
  let orders ← orFail (db.orders.set? id { o with
    status := .cancelPending
    providerId := some (trimSpace activationId)
    cancelFinalStatus := some .failed
    cancelErrorCode := e.code
    cancelErrorMessage := e.message
    lastErrorCode := "CANCEL_PENDING"
    lastErrorMessage := e.message
    updatedAt := db.now }) .uniqueConstraint
  return { db with orders }

/-- The provider has accepted a cancellation. -/
def acceptCancel : Db :=
  (db.update id (fun o => o.status = .cancelPending)
    (fun o => { o with providerCancelAcceptedAt := db.now, updatedAt := db.now })
    fun _ => rfl).getD db

/-- A payment to the wallet with its row of the ledger, if the amount is positive. -/
def pay (row : Ledger) : Except Failure Db := do
  if row.amountQuota ≤ 0 then return db
  let users ← applyWalletQuotaDelta db.users row.userId row.amountQuota
  let ledger ← orFail (db.ledger.insert? row) .uniqueConstraint
  return { db with users, ledger }

/-- A payment for which a row that is in the ledger already is no error. -/
def payTolerant (row : Ledger) : Except Failure Db := do
  if row.amountQuota ≤ 0 then return db
  let users ← applyWalletQuotaDelta db.users row.userId row.amountQuota
  return { db with users, ledger := (db.ledger.insert? row).getD db.ledger }

/-- The transaction of `completeHeroSMSSMSOrder`. -/
def complete (a : Activation) : Except Failure Db := do
  let o ← orFail (db.orders.get? id) .recordNotFound
  if o.status = .active ∨ o.status = .completed then return db
  require (.hero stateChanged) (o.status = .purchaseUnknown)
  require (.hero ⟨502, "CURRENCY_MISMATCH",
    "HeroSMS SMS currency did not match the confirmed quote"⟩) (a.currencyCode = currencyCode)
  require (.hero ⟨409, "PRICE_CHANGED", "HeroSMS SMS quote is invalid"⟩) (0 < o.providerPriceCNY)
  require (.hero priceExceeded) (a.cost ≤ o.providerPriceCNY)
  let actualCharge ← db.settings.chargeQuota (a.cost * o.priceMultiplier)
  require (.hero priceExceeded) (actualCharge ≤ o.chargeQuota)
  let refund := o.chargeQuota - actualCharge
  let db ← db.pay ⟨o.userId, id, refund, .priceRefund id⟩
  let orders ← orFail (db.orders.set? id { o with
    status := .active
    providerId := some a.id
    providerExpiresAt := a.endTime.getD 0
    providerPriceCNY := a.cost
    chargeQuota := actualCharge
    refundedQuota := o.refundedQuota + refund
    lastErrorCode := ""
    lastErrorMessage := ""
    updatedAt := db.now }) .uniqueConstraint
  let _ ← activeUser db.users o.userId
  return { db with orders }

/-- The columns that `refundHeroSMSSMSOrder` writes. -/
def refundedRow (now : ℤ) (status : Status) (code message : String) (refund : ℤ) (o : Order) :
    Order :=
  { o with
    status
    refundedQuota := o.refundedQuota + refund
    lastErrorCode := code
    lastErrorMessage := message
    updatedAt := now
    complaintStatus :=
      if o.complaintStatus.needsReconciliation then .closedRefund else o.complaintStatus }

/-- `refundHeroSMSSMSOrder`. -/
def refund (db : Db) (id : ℕ) (status : Status) (code message : String) (expected : List Status) :
    Except Failure Db := do
  let o ← orFail (db.orders.get? id) .recordNotFound
  require (.hero stateChanged) (expected = [] ∨ o.status ∈ expected)
  let refund := o.reservedQuota - o.refundedQuota
  let db ← db.payTolerant ⟨o.userId, id, refund, .refund id⟩
  let _ ← activeUser db.users o.userId
  return { db with
    orders := db.orders.modify id (refundedRow db.now status code message refund) fun _ => rfl }

/-! ## Codes, cancellations and complaints -/

/-- The update of `completeHeroSMSSMSCode`, with the complaint status of the order as it was read.
-/
def completeCode (read : Order) (expected : Status) : Option Db :=
  db.update id (fun o => o.status = expected) (fun o => { o with
      status := .completed
      updatedAt := db.now
      complaintStatus :=
        if read.complaintStatus.needsReconciliation then .closedCode else o.complaintStatus })
    fun _ => rfl

/-- The claims of `RefreshHeroSMSSMSOrder` for an activation that has expired and of
`CancelHeroSMSSMSOrder`. -/
def claimCancel (id user : ℕ) (code message lastMessage : String) : Option Db :=
  db.update id (fun o => o.userId = user ∧ o.status = .active) (fun o => { o with
      status := .cancelPending
      providerCancelAcceptedAt := 0
      cancelFinalStatus := some .cancelled
      cancelErrorCode := code
      cancelErrorMessage := message
      lastErrorCode := "CANCEL_PENDING"
      lastErrorMessage := lastMessage
      updatedAt := db.now })
    fun _ => rfl

/-- The claim of `SubmitHeroSMSSMSComplaint`. -/
def claimComplaint (id user : ℕ) (complaintType : String) : Option Db :=
  db.update id (fun o => o.userId = user ∧ o.status = .active ∧
      (o.complaintStatus = .none ∨ o.complaintStatus = .failed))
    (fun o => { o with
      complaintType
      complaintStatus := .submitting
      complaintSubmitAttempts := 1
      complaintNextRetryAt := db.now + complaintRetryDelay
      updatedAt := db.now })
    fun _ => rfl

/-- What becomes of a complaint: submitted, to be tried again, or refused. -/
def complaintOutcome : Option ProviderError → ComplaintStatus
  | none => .submitted
  | some e => if e.outcomeUnknown then .submitUnknown else .failed

/-- The next attempt at a complaint, zero for none. -/
def complaintRetry (now : ℤ) (error : Option ProviderError) : ℤ :=
  if complaintOutcome error = .submitUnknown then now + complaintRetryDelay else 0

/-- The update of `SubmitHeroSMSSMSComplaint` after the call of the provider. -/
def recordComplaint (error : Option ProviderError) : Db :=
  (db.update id (fun o => o.status = .active ∧ o.complaintStatus = .submitting) (fun o => { o with
      complaintStatus := complaintOutcome error
      complaintNextRetryAt := complaintRetry db.now error
      updatedAt := db.now })
    fun _ => rfl).getD db

/-- The update of `reconcileHeroSMSSMSComplaintWithProviderLeaseHeld` after another attempt. -/
def recordRetry (attempts : ℤ) (error : Option ProviderError) : Db :=
  (db.update id (fun o => o.status = .active ∧
      (o.complaintStatus = .submitting ∨ o.complaintStatus = .submitUnknown))
    (fun o => { o with
      complaintStatus := complaintOutcome error
      complaintSubmitAttempts := attempts
      complaintNextRetryAt := complaintRetry db.now error
      updatedAt := db.now })
    fun _ => rfl).getD db

/-- The time of the last look at a complaint. -/
def complaintChecked : Db :=
  (db.update id (fun o => o.status = .active ∧ o.complaintStatus.needsReconciliation)
    (fun o => { o with complaintLastCheckedAt := db.now, updatedAt := db.now })
    fun _ => rfl).getD db

/-- Several activations may be the one of an order. -/
def markAmbiguous : Db :=
  (db.update id (fun o => o.status = .purchaseUnknown) (fun o => { o with
      lastErrorCode := "RECONCILIATION_AMBIGUOUS"
      lastErrorMessage := "multiple provider activations require manual reconciliation"
      updatedAt := db.now })
    fun _ => rfl).getD db

/-! ## Lookups -/

/-- `getHeroSMSSMSOrder`. -/
def orderOf (user id : ℕ) : Option Order := (db.orders.get? id).filter fun o => o.userId = user

/-- What `RunHeroSMSSMSReconciliationOnce` looks for. -/
def Pending (o : Order) : Prop :=
  o.status = .purchaseUnknown ∨ o.status = .cancelPending ∨
    (o.status = .active ∧ o.complaintStatus.needsReconciliation)
  deriving Decidable

/-- The place of a status in the order of reconciliation. -/
def rank (o : Order) : ℕ :=
  match o.status with
  | .cancelPending => 0
  | .purchaseUnknown => 1
  | _ => 2

/-- The order of reconciliation. -/
def Sooner (r r' : ℕ × Order) : Prop :=
  rank r.2 < rank r'.2 ∨ (rank r.2 = rank r'.2 ∧ r.2.updatedAt ≤ r'.2.updatedAt)

instance : DecidableRel Sooner := fun _ _ => inferInstanceAs (Decidable (_ ∨ _))

/-- The limit of a reconciliation. -/
def effectiveLimit (limit : ℤ) : ℕ := if limit < 1 ∨ 100 < limit then 20 else limit.toNat

/-- The orders of a reconciliation. -/
def pendingOrders (limit : ℤ) : List (ℕ × Order) :=
  ((db.orders.table.rows.filter fun r => Pending r.2).insertionSort Sooner).take
    (effectiveLimit limit)

end Db

end LmmApi.HeroSms.Sms
