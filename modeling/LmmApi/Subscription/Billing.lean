import Mathlib.Data.List.Sort
import LmmApi.Subscription.Reset

/-!
# Managed subscription billing

A request is charged in stages. `preConsumeSubscriptionBilling` reserves an amount on a subscription
and on the API token and writes the record of the request, `reserveSubscriptionBilling` raises the
reservation, and then the request is either settled with its actual cost or refunded. A settlement
takes two transactions: the first stores the actual cost as an intent, the second moves the
difference, on the subscription as far as its quota reaches and the rest on the wallet.

Every transaction locks the user first and is modelled as one atomic step. The calls of one request
may be repeated, interleaved with others, or stop between the two transactions of a settlement.
-/

namespace LmmApi.Subscription

open Guarded Go

variable (env : Env)

/-! ## Users, tokens and wallets -/

variable (db : Db) (requestId : String) (user : ℕ) (actual : ℤ)

def lockSubscriptionBillingUser : Except Failure Unit := do
  let row ← orFail (db.users.get? user) .recordNotFound
  require .recordNotFound (row.deleted = false)

/-- Take an amount from a token. -/
def Token.spend (delta : ℤ) (t : Token) : Token :=
  { t with remainQuota := t.remainQuota - delta, usedQuota := t.usedQuota + delta }

/-- `subscriptionBillingTokenDelta`: a reservation needs a token that is not deleted and has enough
quota. The token 0 stands for a request without one. -/
def subscriptionBillingTokenDelta (tokens : Table Token) (user token : ℕ) (delta : ℤ)
    (reserve : Bool) : Except Failure (Table Token) :=
  if token = 0 then return tokens else do
    let row ← orFail (tokens.get? token) .recordNotFound
    require .recordNotFound (row.userId = user ∧ (reserve = true → row.deleted = false))
    require .tokenQuotaInsufficient
      ¬(reserve = true ∧ row.unlimitedQuota = false ∧ row.remainQuota < delta)
    require (.other "token quota overflow")
      ¬(0 < delta ∧ (row.remainQuota < minInt64 + delta ∨ maxInt64 - delta < row.usedQuota))
    require (.other "token quota overflow")
      ¬(delta < 0 ∧ (maxInt64 + delta < row.remainQuota ∨ row.usedQuota < minInt64 - delta))
    return tokens.modify token (Token.spend delta)

/-- `ApplyWalletQuotaDelta`. The conditional update affects no row when the user is gone or the
balance would leave its range, and a second look at the user tells which. -/
def applyWalletQuotaDelta (users : Table User) (id : ℕ) (delta : ℤ) :
    Except Failure (Table User) := do
  require .invalidData (0 < id)
  require (.walletQuota delta) (delta = 0 ∨ ValidWalletQuota delta)
  let user ← orFail (users.get? id) .recordNotFound
  require .recordNotFound (user.deleted = false)
  if delta = 0 then
    require .walletQuotaOutOfRange (ValidWalletQuota user.quota)
    return users
  else
    updateWalletQuotaByDelta users id (fun u => u.deleted = false) delta (.walletQuota delta)
      .walletQuotaOutOfRange

/-! ## Subscriptions -/

/-- The used amount is never negative. -/
def clampUsed (used : ℤ) : ℤ := if used < 0 then 0 else used

variable (id : ℕ) (r : PreConsumeRecord) (sub : UserSubscription)

/-- Save a subscription. -/
def Db.saveSubscription : Db :=
  { db with subscriptions := db.subscriptions.modify id fun _ => sub }

def postConsumeUserSubscriptionDeltaTx (delta : ℤ) : Except Failure Db := do
  let sub ← orFail (db.subscriptions.get? id) .recordNotFound
  require (.other "subscription quota overflow") ¬(0 < delta ∧ maxInt64 - delta < sub.amountUsed)
  let newUsed := clampUsed (sub.amountUsed + delta)
  let total := sub.amountTotal
  require (.other s!"subscription used exceeds total, used={newUsed} total={total}")
    ¬(0 < total ∧ total < newUsed)
  return db.saveSubscription id { sub with amountUsed := newUsed }

/-- The subscriptions of a user that are active at `now`, by end time and id. -/
def Db.activeSubscriptions (now : ℤ) : List (ℕ × UserSubscription) :=
  (db.subscriptions.rows.filter fun (_, s) =>
    s.userId = user ∧ s.status = .active ∧ now < s.endTime).insertionSort fun (i, s) (j, s') =>
      s.endTime < s'.endTime ∨ (s.endTime = s'.endTime ∧ i ≤ j)

def getSubscriptionPlanByIdTx : Except Failure SubscriptionPlan := do
  require (.other "invalid plan id") (0 < id)
  orFail (env.plans id) .recordNotFound

/-! ## Pre-consumption -/

/-- The record of a request, whoever made it. -/
def Db.findRecord : Option (ℕ × PreConsumeRecord) :=
  db.records.first? fun _ r => r.requestId = requestId

/-- The record that `preConsumeUserSubscription` creates. -/
def PreConsumeRecord.consumed (requestId : String) (user id : ℕ) (amount : ℤ) :
    PreConsumeRecord where
  requestId
  userId := user
  userSubscriptionId := id
  preConsumed := amount
  status := .consumed

/-- The loop of `preConsumeUserSubscription` over the active subscriptions: each is reset when a
reset is due, and the first with enough quota is charged. The unique index on the request id does
not fail here, since the transaction has found no record of the request. -/
def consumeFirst (requestId : String) (user : ℕ) (amount : ℤ) :
    List (ℕ × UserSubscription) → Db → Except Failure (PreConsumeResult × Db)
  | [], _ => .error (.subscriptionQuotaInsufficient
      s!"subscription quota insufficient, need={amount}")
  | (id, candidate) :: rest, db => do
    let plan ← getSubscriptionPlanByIdTx env candidate.planId
    let sub ← maybeResetUserSubscriptionWithPlan env candidate plan
    let db := db.saveSubscription id sub
    require (.other "subscription quota overflow") ¬maxInt64 - amount < sub.amountUsed
    if 0 < sub.amountTotal ∧ sub.amountTotal - sub.amountUsed < amount then
      consumeFirst requestId user amount rest db
    else
      let used := sub.amountUsed + amount
      return (⟨id, amount, sub.amountTotal, sub.amountUsed, used⟩,
        { db.saveSubscription id { sub with amountUsed := used } with
          records := db.records.insert (.consumed requestId user id amount) })

def preConsumeUserSubscription (amount : ℤ) (db : Db) : Except Failure (PreConsumeResult × Db) := do
  require (.other "invalid userId") (0 < user)
  require (.other "requestId is empty") (trimSpace requestId ≠ "")
  require (.other "amount must be > 0") (0 < amount)
  match db.findRecord requestId with
  | some (_, existing) =>
    require (.other "subscription pre-consume owner or status mismatch")
      (existing.userId = user ∧ existing.status = .consumed)
    let sub ← orFail (db.subscriptions.get? existing.userSubscriptionId) .recordNotFound
    return (⟨existing.userSubscriptionId, existing.preConsumed, sub.amountTotal, sub.amountUsed,
      sub.amountUsed⟩, db)
  | none =>
    let subs := db.activeSubscriptions user env.now
    require .noActiveSubscription (subs ≠ [])
    consumeFirst env requestId user amount subs db

/-- The fields of a record that make it a managed one. -/
def PreConsumeRecord.manage (tokenId : ℕ) (amount : ℤ) (walletOverflow : Bool) (version : ℤ)
    (r : PreConsumeRecord) : PreConsumeRecord :=
  { r with
    billingManaged := true
    tokenId
    tokenConsumed := if tokenId = 0 then 0 else amount
    walletOverflow
    reservedVersion := version }

def preConsumeSubscriptionBilling (user tokenId : ℕ) (amount : ℤ)
    (walletOverflow : Bool) (db : Db) : Except Failure (PreConsumeResult × Db) := do
  lockSubscriptionBillingUser db user
  match db.findRecord requestId with
  | some (_, existing) =>
    require (.other "subscription billing replay mismatch")
      (existing.billingManaged = true ∧ existing.userId = user ∧ existing.tokenId = tokenId ∧
        existing.walletOverflow = walletOverflow ∧ existing.status = .consumed)
    preConsumeUserSubscription env requestId user amount db
  | none =>
    let out ← preConsumeUserSubscription env requestId user amount db
    let sub ← orFail (out.2.subscriptions.get? out.1.userSubscriptionId) .recordNotFound
    let tokens ← subscriptionBillingTokenDelta out.2.tokens user tokenId amount true
    return (out.1, { out.2 with
      tokens
      records := out.2.records.modifyWhere (fun _ r => r.requestId = requestId)
        (PreConsumeRecord.manage tokenId amount walletOverflow sub.quotaVersion) })

/-! ## Changes of a record -/

/-- The managed record of a request of a user. -/
def Db.findManaged : Option (ℕ × PreConsumeRecord) :=
  db.records.first? fun _ r => r.requestId = requestId ∧ r.userId = user ∧ r.billingManaged = true

/-- `mutateSubscriptionBilling`: a transaction that changes the record of a request. -/
def mutateSubscriptionBilling
    (fn : Db → PreConsumeRecord → Except Failure (PreConsumeRecord × Db)) (db : Db) :
    Except Failure (BillingResult × Db) := do
  lockSubscriptionBillingUser db user
  let row ← orFail (db.findManaged requestId user) .recordNotFound
  let out ← fn db row.2
  return (subscriptionBillingResult out.1,
    { out.2 with records := out.2.records.modify row.1 fun _ => out.1 })

/-- The transaction of `ReserveSubscriptionBilling`. -/
def reserveTx (target : ℤ) (db : Db) (r : PreConsumeRecord) :
    Except Failure (PreConsumeRecord × Db) := do
  require (.other "subscription billing is no longer reservable") (r.status = .consumed)
  if target ≤ r.preConsumed then
    return (r, db)
  else
    let sub ← orFail (db.subscriptions.get? r.userSubscriptionId) .recordNotFound
    require (.other "subscription period changed; reserve rejected")
      (sub.quotaVersion = r.reservedVersion)
    let delta := target - r.preConsumed
    let db ← postConsumeUserSubscriptionDeltaTx db r.userSubscriptionId delta
    let tokens ← subscriptionBillingTokenDelta db.tokens user r.tokenId delta true
    return ({ r with
      preConsumed := target
      tokenConsumed := if r.tokenId = 0 then r.tokenConsumed else r.tokenConsumed + delta },
      { db with tokens })

def reserveSubscriptionBilling (target : ℤ) (db : Db) : Except Failure (BillingResult × Db) := do
  require (.other "negative subscription reserve") (0 ≤ target)
  mutateSubscriptionBilling requestId user (reserveTx user target) db

/-! ## Settlement -/

/-- The first transaction of `SettleSubscriptionBilling`. -/
def settleIntentTx (db : Db) (r : PreConsumeRecord) : Except Failure (PreConsumeRecord × Db) :=
  match r.status with
  | .settled | .settling => do
    require (.other "subscription settlement amount mismatch") (r.actualQuota = actual)
    return (r, db)
  | .refunded => .error (.other "subscription billing already refunded")
  | .consumed => return ({ r with actualQuota := actual, status := .settling }, db)

/-- How a settlement is divided: the amount for the subscription and the amount for the wallet. -/
def settlementSplit (active : List (ℕ × UserSubscription)) (actual : ℤ) : Except Failure (ℤ × ℤ) :=
  let delta := actual - r.preConsumed
  let remaining := if sub.amountTotal - sub.amountUsed < 0 then 0 else
    sub.amountTotal - sub.amountUsed
  if 0 < delta ∧ 0 < sub.amountTotal ∧ remaining < delta then do
    require (.subscriptionQuotaInsufficient "subscription quota insufficient")
      (r.walletOverflow = true ∧ sub.allowWalletOverflow = true ∧
        ∀ policy ∈ active, policy.2.allowWalletOverflow = true)
    return (remaining, delta - remaining)
  else return (delta, 0)

/-- What a settlement changes on the subscription: a refund of an earlier period does not reach the
current one. -/
def versionedDelta (subDelta : ℤ) : ℤ :=
  if subDelta < 0 ∧ sub.quotaVersion ≠ r.reservedVersion then 0 else subDelta

/-- The wallet's part of a settlement, which may leave a debt. -/
def chargeWallet (users : Table User) (user : ℕ) (wallet : ℤ) : Except Failure (Table User) :=
  if 0 < wallet then do
    require (.walletQuota wallet) (ValidWalletQuota wallet)
    applyWalletQuotaDelta users user (-wallet)
  else return users

/-- The second transaction of `SettleSubscriptionBilling`. -/
def settleCommitTx (db : Db) (r : PreConsumeRecord) : Except Failure (PreConsumeRecord × Db) :=
  if r.status = .settled then return (r, db) else do
    require (.other "subscription settlement state mismatch")
      (r.status = .settling ∧ r.actualQuota = actual)
    let sub ← orFail (db.subscriptions.get? r.userSubscriptionId) .recordNotFound
    require .recordNotFound (sub.userId = user)
    let split ← settlementSplit r sub (db.activeSubscriptions user env.now) actual
    require (.other "subscription quota overflow")
      ¬(0 < split.1 ∧ maxInt64 - split.1 < sub.amountUsed)
    let db := db.saveSubscription r.userSubscriptionId
      { sub with amountUsed := clampUsed (sub.amountUsed + versionedDelta r sub split.1) }
    let users ← chargeWallet db.users user split.2
    let tokens ← (subscriptionBillingTokenDelta db.tokens user r.tokenId (actual - r.preConsumed)
      false).mapError (.wrapped "settle subscription token: ")
    return ({ r with
      status := .settled
      walletConsumed := split.2
      tokenConsumed := if r.tokenId = 0 then r.tokenConsumed else actual },
    { db with users, tokens })

/-- The first part of `SettleSubscriptionBilling`, which stores the actual cost. -/
def settleSubscriptionBillingIntent (db : Db) : Except Failure (BillingResult × Db) := do
  require (.other "negative actual quota") (0 ≤ actual)
  mutateSubscriptionBilling requestId user (settleIntentTx actual) db

/-- The second part of `SettleSubscriptionBilling`, which moves the difference. -/
def settleSubscriptionBillingCommit (db : Db) : Except Failure (BillingResult × Db) :=
  mutateSubscriptionBilling requestId user (settleCommitTx env user actual) db

/-- `SettleSubscriptionBilling` without interruption: what it returns and the tables it leaves. When
the second transaction fails it returns the stored intent together with the error. -/
def settleSubscriptionBilling (db : Db) : (Option BillingResult × Option Failure) × Db :=
  match settleSubscriptionBillingIntent requestId user actual db with
  | .error e => ((none, some e), db)
  | .ok (intent, db) =>
    match settleSubscriptionBillingCommit env requestId user actual db with
    | .error e => ((some intent, some e), db)
    | .ok (result, db) => ((some result, none), db)

/-! ## Refunds -/

/-- Give a reservation back to its subscription, unless a new period has begun. -/
def releaseReservation : Except Failure Db :=
  if sub.quotaVersion = r.reservedVersion then
    postConsumeUserSubscriptionDeltaTx db r.userSubscriptionId (-r.preConsumed)
  else return db

/-- The transaction of `RefundSubscriptionBilling`. -/
def refundTx (db : Db) (r : PreConsumeRecord) : Except Failure (PreConsumeRecord × Db) :=
  if r.status = .refunded then return (r, db) else do
    require (.other "cannot refund completed upstream usage; retry settlement")
      (r.status = .consumed)
    let sub ← orFail (db.subscriptions.get? r.userSubscriptionId) .recordNotFound
    let db ← releaseReservation db r sub
    let tokens ← subscriptionBillingTokenDelta db.tokens user r.tokenId (-r.tokenConsumed) false
    return ({ r with status := .refunded, tokenConsumed := 0 }, { db with tokens })

def refundSubscriptionBilling (db : Db) : Except Failure (BillingResult × Db) :=
  mutateSubscriptionBilling requestId user (refundTx user) db

/-! ## Operations -/

/-- A period reset of a subscription on its own. -/
def resetSubscription (plan : SubscriptionPlan) (db : Db) : Except Failure Db := do
  let sub ← orFail (db.subscriptions.get? id) .recordNotFound
  let sub ← maybeResetUserSubscriptionWithPlan env sub plan
  return db.saveSubscription id sub

/-- The transactions of managed billing. -/
inductive Op
  | preConsume (requestId : String) (user tokenId : ℕ) (amount : ℤ) (walletOverflow : Bool)
  | reserve (requestId : String) (user : ℕ) (target : ℤ)
  | settleIntent (requestId : String) (user : ℕ) (actual : ℤ)
  | settleCommit (requestId : String) (user : ℕ) (actual : ℤ)
  | refund (requestId : String) (user : ℕ)
  | reset (id : ℕ) (plan : SubscriptionPlan)

/-- The tables after a transaction, if it commits. -/
def Op.run : Op → Db → Except Failure Db
  | .preConsume requestId user tokenId amount walletOverflow, db =>
    (preConsumeSubscriptionBilling env requestId user tokenId amount walletOverflow db).map Prod.snd
  | .reserve requestId user target, db =>
    (reserveSubscriptionBilling requestId user target db).map Prod.snd
  | .settleIntent requestId user actual, db =>
    (settleSubscriptionBillingIntent requestId user actual db).map Prod.snd
  | .settleCommit requestId user actual, db =>
    (settleSubscriptionBillingCommit env requestId user actual db).map Prod.snd
  | .refund requestId user, db => (refundSubscriptionBilling requestId user db).map Prod.snd
  | .reset id plan, db => resetSubscription env id plan db

/-- The tables after a transaction, which is rolled back when it fails. -/
def Op.step (op : Op) (db : Db) : Db := ((op.run env db).toOption).getD db

end LmmApi.Subscription
