import LmmApi.HeroSms.Email.Data
import Mathlib.Data.List.Sort

/-!
# The database statements on orders of e-mail addresses

Every process of the platform works on the orders and their activations through these statements,
each of which is one transaction or one update. A transaction that fails leaves the database as it
is.
-/

namespace LmmApi.HeroSms.Email

open Guarded Go

/-- An activation with another status. -/
def Activation.withStatus (status : Status) (now : ℤ) (a : Activation) : Activation :=
  { a with status, updatedAt := now }

namespace Db

/-! ## Lookups -/

variable (db : Db) (aid : ℕ) (id : ℕ)

/-- The activations of an order by slot. -/
def activationsOf : List (ℕ × Activation) :=
  (db.activations.table.rows.filter fun r => r.2.orderId = id).insertionSort
    fun r r' => r.2.slot ≤ r'.2.slot

/-- `getHeroSMSEmailActivationForUser`. -/
def activationOf (user aid : ℕ) : Option Activation :=
  (db.activations.get? aid).filter fun a => a.userId = user

inductive Replay
  | missed
  | mismatch
  | found (id : ℕ) (order : Order)

/-- The lookup of an order by its idempotency key. -/
def replay (user : ℕ) (operation : Operation) (idempotencyHash payloadHash : String) : Replay :=
  match db.orders.first? fun _ o =>
    o.userId = user ∧ o.operation = operation ∧ o.idempotencyKeyHash = idempotencyHash with
  | none => .missed
  | some (id, o) => if o.requestPayloadHash ≠ payloadHash then .mismatch else .found id o

/-- The columns by which a reconciliation takes its rows. -/
def Sooner (t t' : ℤ × ℤ) : Prop := t.1 < t'.1 ∨ (t.1 = t'.1 ∧ t.2 ≤ t'.2)

instance : DecidableRel Sooner := fun _ _ => inferInstanceAs (Decidable (_ ∨ _))

/-- The limit of a reconciliation. -/
def effectiveLimit (limit : ℤ) : ℕ := if limit ≤ 0 then 20 else limit.toNat

variable (now : ℤ) (a : Activation) (limit : ℕ)

/-- How many orders a reconciliation takes. -/
def orderLimit : ℕ := max 1 (limit / 2)

/-- The orders of a reconciliation. -/
def pendingOrders : List (ℕ × Order) :=
  ((db.orders.table.rows.filter fun r => r.2.status = .pendingProvider ∨
      r.2.status = .purchaseUnknown ∨ r.2.status = .reconciling).insertionSort
    fun r r' => Sooner (r.2.lastReconciledAt, r.2.updatedAt)
      (r'.2.lastReconciledAt, r'.2.updatedAt)).take limit

/-- The activations of a reconciliation. -/
def pendingActivations : List (ℕ × Activation) :=
  ((db.activations.table.rows.filter fun r => r.2.status = .active ∨ r.2.status = .reconciling ∨
      r.2.status = .cancelPending).insertionSort
    fun r r' => Sooner (r.2.lastReconciledAt, r.2.updatedAt)
      (r'.2.lastReconciledAt, r'.2.updatedAt)).take limit

/-! ## Creation -/

def insufficientBalance : Failure :=
  .hero ⟨402, "INSUFFICIENT_BALANCE", "insufficient quota balance"⟩

/-- `reserveHeroSMSEmailQuota`: the new order with its id. -/
def reserve (db : Db) (order : Order) (slots : List Activation) : Except Failure (ℕ × Db) := do
  let user ← activeUser db.users order.userId
  require insufficientBalance (order.chargeQuota ≤ user.quota)
  let users ← updateWalletQuotaByDelta db.users order.userId
    (fun u => u.deleted = false ∧ order.chargeQuota ≤ u.quota) (-order.chargeQuota)
    .walletQuotaOutOfRange insufficientBalance
  let id := db.orders.table.next
  let orders ← orFail (db.orders.insert? order)
    (.hero ⟨409, "IDEMPOTENCY_MISMATCH", "duplicate HeroSMS idempotency key"⟩)
  let activations ← orFail (db.activations.insertAll? (slots.map fun a => { a with orderId := id }))
    .uniqueConstraint
  let ledger ← orFail (db.ledger.insert?
    { userId := order.userId, orderId := id, amountQuota := -order.chargeQuota, key := .reserve id })
    .uniqueConstraint
  return (id, { db with users, orders, activations, ledger })

/-- The columns of an order that say how far it has come. -/
def marked (status : OrderStatus) (code message : String) (o : Order) : Order :=
  { o with status, lastErrorCode := code, lastErrorMessage := message, updatedAt := now }

/-- `markHeroSMSEmailOrderStatus`, which always moves waiting activations to `reconciling`. -/
def mark (status : OrderStatus) (code message : String) : Db :=
  { db with
    orders := db.orders.modify id (marked db.unix status code message) fun _ => rfl
    activations := db.activations.modifyWhere
      (fun _ a => a.orderId = id ∧ a.status = .pendingProvider)
      (Activation.withStatus .reconciling db.unix) fun _ => rfl }

/-- An update of one activation. -/
def setActivation (f : Activation → Activation) (hf : ∀ a, (f a).keys = a.keys) : Db :=
  { db with activations := db.activations.modify aid f hf }

/-! ## Refunds -/

/-- `heroSMSRefundOrderTx` and `heroSMSRefundActivationTx`: a refund that is in the ledger already
is no error. -/
def refundTx (row : Ledger) : Except Failure Db :=
  if row.amountQuota ≤ 0 then .ok db
  else match db.ledger.insert? row with
  | none => .ok db
  | some ledger => do
    let o ← orFail (db.orders.get? row.orderId) .refundExceedsReserved
    require .refundExceedsReserved (o.refundedQuota + row.amountQuota ≤ o.chargeQuota)
    let users ← applyWalletQuotaDelta db.users row.userId row.amountQuota
    return { db with
      users
      ledger
      orders := db.orders.modify row.orderId
        (fun o => { o with refundedQuota := o.refundedQuota + row.amountQuota }) fun _ => rfl }

/-- The rows of an order that fails, before its refund. -/
def failRows (e : HeroError) : Db :=
  { db with
    orders := db.orders.modify id (marked db.unix .failed e.code e.message) fun _ => rfl
    activations := db.activations.modifyWhere
      (fun _ a => a.orderId = id ∧ (a.status = .pendingProvider ∨ a.status = .reconciling))
      (Activation.withStatus .cancelled db.unix) fun _ => rfl }

/-- The transaction of `failHeroSMSEmailOrder`. -/
def fail (e : HeroError) : Except Failure Db := do
  let o ← orFail (db.orders.get? id) .recordNotFound
  if o.status ≠ .pendingProvider ∧ o.status ≠ .purchaseUnknown then return db
  else
    (db.failRows id e).refundTx
      { userId := o.userId, orderId := id, amountQuota := o.chargeQuota, key := .orderFailure id }

/-! ## The status of an order -/

/-- Nothing is known of the address of an activation. -/
def UnknownProvider : Prop := a.providerId = none ∧ trimSpace a.email = ""
  deriving Decidable

/-- The status of an order by those of its activations, with the code and the message of it. -/
def aggregated (acts : List Activation) : OrderStatus × String × String :=
  if acts.any fun a => a.status = .pendingProvider ∨ a.status = .reconciling ∨
      a.status = .cancelPending then
    (.reconciling, "PURCHASE_PENDING_RECONCILIATION", "purchase requires provider reconciliation")
  else if acts.all fun a => a.status = .refunded then
    (.failed, "PURCHASE_COMPENSATED", "provider purchase was cancelled and refunded")
  else (.completed, "", "")

/-- `aggregateHeroSMSEmailOrderStatusTx`. -/
def aggregate : Except Failure Db := do
  let o ← orFail (db.orders.get? id) .recordNotFound
  let acts := (db.activationsOf id).map Prod.snd
  if acts = [] ∨ (o.status = .purchaseUnknown ∧ acts.any fun a => UnknownProvider a) then return db
  else
    let (status, code, message) := aggregated acts
    return { db with
      orders := db.orders.modify id (marked db.unix status code message) fun _ => rfl }

/-! ## The outcome of a purchase -/

/-- `preparedActivation`. -/
structure Prepared where
  providerId : Option String := none
  email : String := ""
  status : Status := .reconciling
  cancelReason : Option CancelReason := none
  refundQuota : ℤ := 0
  deriving DecidableEq

/-- The row that `finalizeHeroSMSKnownPurchase` saves. A cancellation that has been claimed stays.
-/
def Prepared.row (item : Prepared) (now : ℤ) (a : Activation) : Activation :=
  let a := { a with providerId := item.providerId, email := item.email, updatedAt := now }
  if a.status = .cancelPending then a
  else { a with
    status := item.status
    cancelReason := item.cancelReason
    refundQuota := item.refundQuota }

/-- The transaction of `finalizeHeroSMSKnownPurchase` for one activation. -/
def finalizeSlot (id user : ℕ) (slot : ℕ × Prepared) : Except Failure Db := do
  let (aid, item) := slot
  let a ← orFail ((db.activations.get? aid).filter fun a => a.orderId = id) .recordNotFound
  if a.status = .cancelled ∨ a.status = .refunded then return db
  else
    let activations ← orFail (db.activations.set? aid (item.row db.unix a)) .uniqueConstraint
    let db := { db with activations }
    if a.status ≠ .cancelPending ∧ item.status = .refunded then
      db.refundTx { userId := user, orderId := id, activationId := some aid,
                    amountQuota := item.refundQuota, key := .refund aid item.cancelReason }
    else return db

/-- The transaction of `finalizeHeroSMSKnownPurchase`. -/
def finalize (slots : List (ℕ × Prepared)) : Except Failure Db := do
  let o ← orFail (db.orders.get? id) .recordNotFound
  let db ← slots.foldlM (fun db slot => db.finalizeSlot id o.userId slot) db
  db.aggregate id

/-! ## The address of an activation -/

/-- The status that a record of the provider stands for. -/
def statusOf (r : Record) : Status :=
  if trimSpace r.code ≠ "" ∨ trimSpace r.message ≠ "" then .completed
  else
    let text := toUpper (trimSpace r.status)
    if text ∈ ["5", "SUCCESS", "COMPLETE", "COMPLETED"] then .completed
    else if text ∈ ["4", "CANCEL", "CANCELED", "CANCELLED"] then .cancelled
    else if text ∈ ["6", "7", "EXPIRE", "EXPIRED"] then .expired
    else .active

/-- The columns of an activation that a record sets: an address in another currency or above the
reserved price is to be cancelled. -/
def outcome (reserved : ℚ) (r : Record) : Status × Option CancelReason :=
  if r.currencyCode ≠ currencyCode then (.cancelPending, some .currencyMismatch)
  else if reserved < r.cost then (.cancelPending, some .priceChanged)
  else (statusOf r, none)

/-- The row that `persistHeroSMSEmailRecord` writes, where `charge` is the price of the activation
as it was read. -/
def persistedRow (now charge : ℤ) (reserved : ℚ) (r : Record) (a : Activation) : Activation :=
  { a with
    status := (outcome reserved r).1
    cancelReason := (outcome reserved r).2
    refundQuota := if (outcome reserved r).2 = none then 0 else charge
    providerId := some r.id
    email := stored r.email
    updatedAt := now }

/-- The update of `persistHeroSMSEmailRecord`, which leaves cancelled activations alone. -/
def persistUpdate (read : Activation) (reserved : ℚ) (r : Record) : Except Failure Db :=
  match (db.activations.get? aid).filter fun a =>
    a.status ≠ .cancelPending ∧ a.status ≠ .cancelled ∧ a.status ≠ .refunded with
  | none => .ok db
  | some a => do
    let activations ← orFail
      (db.activations.set? aid (persistedRow db.unix read.chargeQuota reserved r a)) .uniqueConstraint
    return { db with activations }

/-- `persistHeroSMSEmailRecord` with the activation as it was read. -/
def persist (read : Activation) (r : Record) : Except Failure Db := do
  require (.hero ⟨502, "BAD_UPSTREAM_RESPONSE", "HeroSMS returned an incomplete activation"⟩)
    (trimSpace r.id ≠ "" ∧ trimSpace r.email ≠ "")
  let o ← orFail (db.orders.get? read.orderId) .recordNotFound
  let db ← db.persistUpdate aid read o.reservedUnitCost r
  db.aggregate read.orderId

/-! ## Cancellation -/

def notCancellable (message : String) : Failure := .hero ⟨409, "INVALID_REQUEST", message⟩

/-- The activation of a user, with its order locked. -/
def lockedActivation (user aid orderId : ℕ) : Except Failure Activation := do
  let _ ← orFail ((db.orders.get? orderId).filter fun o => o.userId = user) .recordNotFound
  orFail (db.activationOf user aid) (.hero ⟨404, "NOT_FOUND", "HeroSMS activation not found"⟩)

/-- An activation that its user cancels. -/
def claimedRow : Activation :=
  { a with status := .cancelPending, cancelReason := some .user, updatedAt := now }

/-- The first transaction of `CancelHeroSMSEmailActivation`, with the provider id to cancel, which
is empty if there is nothing to do. -/
def claimCancel (user aid orderId : ℕ) : Except Failure (String × Db) := do
  let a ← db.lockedActivation user aid orderId
  match a.status with
  | .cancelled | .refunded | .cancelPending => return ("", db)
  | .completed | .expired =>
    .error (notCancellable "terminal HeroSMS activation cannot be cancelled")
  | .pendingProvider | .active | .reconciling =>
    let db ← (db.setActivation aid (claimedRow db.unix) fun _ => rfl).aggregate a.orderId
    return (trimSpace (a.providerId.getD ""), db)

/-- The second transaction of `CancelHeroSMSEmailActivation`. -/
def confirmCancel (user aid orderId : ℕ) : Except Failure Db := do
  let a ← db.lockedActivation user aid orderId
  if a.status ≠ .cancelPending ∨ a.cancelReason ≠ some .user then return db
  else (db.setActivation aid (.withStatus .cancelled db.unix) fun _ => rfl).aggregate a.orderId

/-- What a cancellation without the user gives back. -/
def compensation : ℤ := if a.refundQuota ≤ 0 then a.chargeQuota else a.refundQuota

def compensatedRow : Activation :=
  { a with status := .refunded, refundQuota := compensation a, updatedAt := now }

/-- The transaction of `RunHeroSMSEmailReconciliationOnce` after a cancellation. -/
def compensate (aid orderId : ℕ) : Except Failure Db := do
  let o ← orFail (db.orders.get? orderId) .recordNotFound
  let a ← orFail (db.activations.get? aid) .recordNotFound
  if a.status ≠ .cancelPending then return db
  else if a.cancelReason = some .priceChanged ∨ a.cancelReason = some .currencyMismatch ∨
      a.cancelReason = some .badUpstream then
    let db ← (db.setActivation aid (compensatedRow db.unix) fun _ => rfl).refundTx
      { userId := o.userId, orderId := orderId, activationId := some aid,
        amountQuota := compensation a, key := .refund aid a.cancelReason }
    db.aggregate a.orderId
  else (db.setActivation aid (.withStatus .cancelled db.unix) fun _ => rfl).aggregate a.orderId

/-! ## Times -/

def touchOrder : Db :=
  { db with
    orders := db.orders.modify id (fun o => { o with lastReconciledAt := db.now }) fun _ => rfl }

def touchActivation : Db :=
  db.setActivation aid (fun a => { a with lastReconciledAt := db.now }) fun _ => rfl

end Db

end LmmApi.HeroSms.Email
