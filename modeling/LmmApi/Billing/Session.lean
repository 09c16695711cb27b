import LmmApi.Billing.Reserve

/-!
# Billing sessions

A `BillingSession` is the charge of one request: `newBillingSession` chooses a wallet or a
subscription by the user's preference and reserves an amount on it, `Session.reserve` raises the
reservation, and `Session.settle` or `Session.refund` ends it.

A subscription and the token change in one transaction. For a wallet they are separate updates, and
what fails is taken back by hand; the refund of a wallet runs in the background with amounts
copied when it was scheduled.

Every session is managed, and `shouldTrust` answers no for both sources, so that neither the
unmanaged subscription nor the trusted bypass appears here. The assistant's own funding is left out.
-/

namespace LmmApi.Billing

open Guarded Subscription

variable (env : CallEnv)

/-! ## Errors -/

/-- The error codes of `NewBillingSession`. -/
inductive ErrorCode
  | invalidRequest
  | queryDataError
  | updateDataError
  | insufficientUserQuota
  | preConsumeTokenQuotaFailed
  | webDrawingMinimumBalance
  | modelPriceError
  deriving DecidableEq

/-- `NewAPIError`. -/
structure ApiError where
  code : ErrorCode
  cause : Failure

/-- The error of a funding source. -/
inductive FundingError
  /-- `ErrInsufficientWalletQuota`. -/
  | insufficientWallet
  /-- `ErrWebDrawingMinimumBalance`. -/
  | webDrawingMinimum
  /-- An error of the database. -/
  | model (cause : Failure)

/-- `newWebDrawingMinimumBalanceError`. -/
def webDrawingMinimumBalanceError : ApiError :=
  ⟨.webDrawingMinimumBalance,
    .other "Web drawing requires a starting wallet balance of at least USD 10."⟩

/-! ## Sessions -/

structure WalletFunding where
  userId : ℕ
  minimumQuota : ℤ
  consumed : ℤ := 0
  deriving DecidableEq

/-- `SubscriptionFunding`, without what is only shown. -/
structure SubscriptionFunding where
  requestId : String
  userId : ℕ
  amount : ℤ
  tokenId : ℕ
  walletOverflow : Bool
  subscriptionId : ℕ := 0
  preConsumed : ℤ := 0
  deriving DecidableEq

/-- `FundingSource`. -/
inductive Funding
  | wallet (funding : WalletFunding)
  | subscription (funding : SubscriptionFunding)
  deriving DecidableEq

/-- `BillingSession`. -/
structure Session where
  info : RelayInfo
  funding : Funding
  preConsumedQuota : ℤ := 0
  tokenConsumed : ℤ := 0
  fundingSettled : Bool := false
  settled : Bool := false
  refunded : Bool := false
  settlementAttempted : Bool := false
  deriving DecidableEq

/-! ## Pre-consumption -/

variable (s : Session) (info : RelayInfo) (preConsumedQuota : ℤ) (w : WalletFunding)
  (f : SubscriptionFunding)

/-- `WalletFunding.PreConsume`. -/
def WalletFunding.preConsume (amount : ℤ) (users : Table User) :
    Except FundingError (WalletFunding × Table User) :=
  if amount ≤ 0 ∧ w.minimumQuota = 0 then return (w, users) else do
    let out ← (tryReserveUserQuotaWithMinimum env users w.userId amount w.minimumQuota).mapError
      .model
    if out.1 = true then return ({ w with consumed := amount }, out.2)
    else
      if 0 < w.minimumQuota then
        let balance ← (getUserQuota env .readBalance users w.userId).mapError .model
        require .webDrawingMinimum (w.minimumQuota ≤ balance)
      .error .insufficientWallet

variable (user : ℕ) (targetQuota : ℤ) (actualQuota : ℤ) (db : Db)

/-- `SubscriptionFunding.PreConsume`, which takes its own amount. -/
def SubscriptionFunding.preConsume : Except FundingError (SubscriptionFunding × Db) :=
  (do
    env.reach .subscription
    let out ← preConsumeSubscriptionBilling env.database f.requestId f.userId f.tokenId f.amount
      f.walletOverflow db
    return ({ f with
      subscriptionId := out.1.userSubscriptionId
      preConsumed := out.1.preConsumed }, out.2) : Except Failure _).mapError .model

/-- The error that a user sees for the error of a funding source. -/
def fundingError (users : Table User) : FundingError → ApiError
  | .model .tokenQuotaInsufficient => ⟨.preConsumeTokenQuotaFailed, .tokenQuotaInsufficient⟩
  | .webDrawingMinimum => webDrawingMinimumBalanceError
  | .insufficientWallet =>
    let userQuota := match getUserQuota env .readShown users info.userId with
      | .ok quota => quota
      | .error _ => 0
    let shown := env.formatQuota userQuota
    ⟨.insufficientUserQuota, .other s!"用户额度不足, 剩余额度: {shown}"⟩
  | .model .noActiveSubscription =>
    ⟨.insufficientUserQuota, .wrapped "订阅额度不足或未配置订阅: " .noActiveSubscription⟩
  | .model (.subscriptionQuotaInsufficient message) =>
    ⟨.insufficientUserQuota, .wrapped "订阅额度不足或未配置订阅: " (.subscriptionQuotaInsufficient message)⟩
  | .model e => ⟨.updateDataError, e⟩

/-- The tokens after the reservation on a token was taken back; a failure is only logged. -/
def rollbackToken (tokenConsumed : ℤ) (tokens : Table Token) : Table Token :=
  if 0 < tokenConsumed ∧ info.UsesToken then
    match increaseTokenQuota env .undoToken tokens info.tokenId tokenConsumed with
    | .ok restored => restored
    | .error _ => tokens
  else tokens

/-- `preConsume` of a session on a wallet: first the token, then the wallet. -/
def preConsumeWallet (quota : ℤ) (db : Db) : Except ApiError Session × Db :=
  match (if 0 < quota then preConsumeTokenQuota env info quota db.tokens else .ok db.tokens) with
  | .error e => (.error ⟨.preConsumeTokenQuotaFailed, e⟩, db)
  | .ok tokens =>
    let tokenConsumed := if 0 < quota then quota else 0
    match w.preConsume env quota db.users with
    | .error e =>
      (.error (fundingError env info db.users e),
        { db with tokens := rollbackToken env info tokenConsumed tokens })
    | .ok (w, users) =>
      (.ok { info, funding := .wallet w, preConsumedQuota := quota, tokenConsumed },
        { db with users, tokens })

/-- `preConsume` of a session on a subscription: one transaction for both. -/
def preConsumeSubscription : Except ApiError Session × Db :=
  match f.preConsume env db with
  | .error e => (.error (fundingError env info db.users e), db)
  | .ok (f, db) =>
    (.ok {
      info
      funding := .subscription f
      preConsumedQuota := f.preConsumed
      tokenConsumed := if f.tokenId ≠ 0 then f.preConsumed else 0 }, db)

/-! ## The choice of the source -/

/-- A billing preference. -/
inductive BillingPreference
  | subscriptionFirst
  | walletFirst
  | subscriptionOnly
  | walletOnly
  deriving DecidableEq

def normalizeBillingPreference (text : String) : BillingPreference :=
  match Go.trimSpace text with
  | "wallet_first" => .walletFirst
  | "subscription_only" => .subscriptionOnly
  | "wallet_only" => .walletOnly
  | _ => .subscriptionFirst

/-- The subscription is an active one of the user. -/
def ActiveFor (now : ℤ) (sub : UserSubscription) : Prop :=
  sub.userId = user ∧ sub.status = .active ∧ now < sub.endTime
  deriving Decidable

def hasActiveUserSubscription : Except Failure Bool := do
  require (.other "invalid userId") (0 < user)
  env.reach .hasActive
  return decide (db.subscriptions.Any fun _ sub => ActiveFor user env.checkedAt sub)

def userActiveSubscriptionsAllowWalletOverflow : Except Failure Bool := do
  require (.other "invalid userId") (0 < user)
  env.reach .allowOverflow
  return decide ¬db.subscriptions.Any fun _ sub =>
    ActiveFor user env.overflowAt sub ∧ sub.allowWalletOverflow = false

/-- `tryWallet`. The look at the balance only saves a reservation that would be refused. -/
def tryWallet : Except ApiError Session × Db :=
  match getUserQuota env .readQuota db.users info.userId with
  | .error e => (.error ⟨.queryDataError, e⟩, db)
  | .ok userQuota =>
    let shown := env.formatQuota userQuota
    let need := env.formatQuota preConsumedQuota
    if 0 < info.minimumQuota ∧ userQuota < info.minimumQuota then
      (.error webDrawingMinimumBalanceError, db)
    else if userQuota ≤ 0 then
      (.error ⟨.insufficientUserQuota, .other s!"用户额度不足, 剩余额度: {shown}"⟩, db)
    else if userQuota - preConsumedQuota < 0 then
      (.error ⟨.insufficientUserQuota, .other s!"预扣费额度失败, 用户剩余额度: {shown}, 需要预扣费额度: {need}"⟩, db)
    else
      preConsumeWallet env info { userId := info.userId, minimumQuota := info.minimumQuota }
        preConsumedQuota db

/-- The amount that a subscription reserves. -/
def subConsume : ℤ := if preConsumedQuota ≤ 0 then 1 else preConsumedQuota

/-- `trySubscription`. A task never lets its settlement overflow to the wallet, since its row keeps
one funding source only. -/
def trySubscription (preference : BillingPreference) (preConsumedQuota : ℤ)
    (db : Db) : Except ApiError Session × Db :=
  if info.UsesToken ∧ info.tokenId = 0 then
    (.error ⟨.preConsumeTokenQuotaFailed, .other "subscription billing token is missing"⟩, db)
  else
    preConsumeSubscription env info {
      requestId := info.requestId
      userId := info.userId
      amount := subConsume preConsumedQuota
      tokenId := if info.UsesToken then info.tokenId else 0
      walletOverflow := decide (preference = .subscriptionFirst ∧ info.isTask = false) } db

/-- Try another source if the first has not enough. -/
def orIfInsufficient (first : Except ApiError Session × Db)
    (second : ApiError → Db → Except ApiError Session × Db) : Except ApiError Session × Db :=
  match first with
  | (.error e, db) => if e.code = .insufficientUserQuota then second e db else (.error e, db)
  | done => done

/-- The choice of `NewBillingSession` between the sources. -/
def chooseFunding : Except ApiError Session × Db :=
  let preference := normalizeBillingPreference info.billingPreference
  match preference with
  | .subscriptionOnly => trySubscription env info preference preConsumedQuota db
  | .walletOnly => tryWallet env info preConsumedQuota db
  | .walletFirst =>
    orIfInsufficient (tryWallet env info preConsumedQuota db) fun _ db =>
      trySubscription env info preference preConsumedQuota db
  | .subscriptionFirst =>
    match hasActiveUserSubscription env info.userId db with
    | .error e => (.error ⟨.queryDataError, e⟩, db)
    | .ok false => tryWallet env info preConsumedQuota db
    | .ok true =>
      orIfInsufficient (trySubscription env info preference preConsumedQuota db) fun refusal db =>
        match userActiveSubscriptionsAllowWalletOverflow env info.userId db with
        | .error e => (.error ⟨.queryDataError, e⟩, db)
        | .ok true => tryWallet env info preConsumedQuota db
        | .ok false => (.error refusal, db)

/-- The check of the minimum balance that web drawing demands. -/
def checkMinimum : Except ApiError Unit :=
  if 0 < info.minimumQuota then do
    require ⟨.invalidRequest, .walletQuota info.minimumQuota⟩ (ValidWalletQuota info.minimumQuota)
    let balance ← (getUserQuota env .readMinimum db.users info.userId).mapError fun e =>
      ⟨.queryDataError, e⟩
    require webDrawingMinimumBalanceError (info.minimumQuota ≤ balance)
  else return ()

def newBillingSession : Except ApiError Session × Db :=
  match checkMinimum env info db with
  | .error e => (.error e, db)
  | .ok () => chooseFunding env info preConsumedQuota db

/-! ## Settlement -/

/-- What a call on a session leaves: the error it returns, the errors it only logs, the session and
the tables. -/
structure Outcome where
  error : Option Failure := none
  logged : List Failure := []
  session : Session
  db : Db

/-- `WalletFunding.Settle`. -/
def WalletFunding.settle (delta : ℤ) (users : Table User) : Except Failure (Table User) :=
  if delta = 0 then return users
  else if 0 < delta then decreaseUserQuota env .moveWallet users w.userId delta
  else increaseUserQuota env .moveWallet users w.userId (-delta)

/-- The adjustment of the token in a settlement. -/
def settleToken (delta : ℤ) (tokens : Table Token) : Except Failure (Table Token) :=
  if ¬info.UsesToken then return tokens
  else if 0 < delta then decreaseTokenQuota env .moveToken tokens info.tokenId delta
  else increaseTokenQuota env .moveToken tokens info.tokenId (-delta)

/-- `Settle` of a session on a wallet. It does not look at `refunded`. -/
def Session.settleWallet : Outcome :=
  let delta := actualQuota - s.preConsumedQuota
  if s.settled then { session := s, db }
  else if delta = 0 then { session := { s with settled := true }, db }
  else
    match (if s.fundingSettled then .ok db.users else w.settle env delta db.users) with
    | .error e => { error := some e, session := s, db }
    | .ok users =>
      let session := { s with fundingSettled := true, settled := true }
      match settleToken env s.info delta db.tokens with
      | .error e => { error := some e, logged := [e], session, db := { db with users } }
      | .ok tokens => { session, db := { db with users, tokens } }

/-- `Settle` of a session on a subscription. The cost is stored in a transaction of its own, which
stays when the one that moves the quota fails. -/
def Session.settleSubscription : Outcome :=
  if actualQuota < 0 ∨ s.refunded then
    { error := some (.other "invalid subscription settlement"), session := s, db }
  else
    let session := { s with settlementAttempted := true }
    match (do
      env.reach .settleIntent
      settleSubscriptionBillingIntent f.requestId f.userId actualQuota db) with
    | .error e => { error := some e, session, db }
    | .ok (_, db) =>
      match (do
        env.reach .settleCommit
        settleSubscriptionBillingCommit env.database f.requestId f.userId actualQuota db) with
      | .error e => { error := some e, session, db }
      | .ok (_, db) => { session := { session with fundingSettled := true, settled := true }, db }

/-- `BillingSession.Settle`. -/
def Session.settle : Outcome :=
  match s.funding with
  | .wallet w => s.settleWallet env w actualQuota db
  | .subscription f => s.settleSubscription env f actualQuota db

/-! ## Later reservations -/

/-- `Reserve` of a session on a wallet. The wallet may go into debt, the token may not. -/
def Session.reserveWallet : Outcome :=
  let delta := targetQuota - s.preConsumedQuota
  if s.settled ∨ s.refunded ∨ targetQuota ≤ s.preConsumedQuota then { session := s, db }
  else
    match decreaseUserQuota env .moveWallet db.users w.userId delta with
    | .error e => { error := some e, session := s, db }
    | .ok users =>
      match preConsumeTokenQuota env s.info delta db.tokens with
      | .error e =>
        match increaseUserQuota env .undoWallet users w.userId delta with
        | .ok users => { error := some e, session := s, db := { db with users } }
        | .error undo =>
          { error := some e
            logged := [undo]
            session := { s with funding := .wallet { w with consumed := w.consumed + delta } }
            db := { db with users } }
      | .ok tokens =>
        { session := { s with
            funding := .wallet { w with consumed := w.consumed + delta }
            preConsumedQuota := s.preConsumedQuota + delta
            tokenConsumed := s.tokenConsumed + delta }
          db := { db with users, tokens } }

/-- `Reserve` of a session on a subscription. -/
def Session.reserveSubscription : Outcome :=
  if s.settlementAttempted ∨ s.refunded then
    { error := some (.other "subscription billing is no longer reservable"), session := s, db }
  else
    match (do
      env.reach .subscription
      reserveSubscriptionBilling f.requestId f.userId targetQuota db) with
    | .error e => { error := some e, session := s, db }
    | .ok (result, db) =>
      { session := { s with
          preConsumedQuota := result.reservedQuota
          tokenConsumed := result.tokenQuota }
        db }

/-- `BillingSession.Reserve`. -/
def Session.reserve : Outcome :=
  match s.funding with
  | .wallet w => s.reserveWallet env w targetQuota db
  | .subscription f => s.reserveSubscription env f targetQuota db

/-! ## Refunds -/

/-- The refund of a record that is not managed. -/
def refundUnmanaged (i : ℕ) (r : PreConsumeRecord) (db : Db) : Except Failure Db :=
  if r.status = .refunded then return db else do
    require (.other "subscription billing cannot be refunded after settlement")
      (r.status = .consumed)
    let db ← if r.preConsumed ≤ 0 then pure db
      else postConsumeUserSubscriptionDeltaTx db r.userSubscriptionId (-r.preConsumed)
    return db.saveRecord i { r with status := .refunded }

def refundSubscriptionPreConsume (requestId : String) (db : Db) : Except Failure Db := do
  require (.other "requestId is empty") (Go.trimSpace requestId ≠ "")
  let found ← orFail (db.findRecord requestId) .recordNotFound
  if found.2.billingManaged = true then
    let out ← refundSubscriptionBilling requestId found.2.userId db
    return out.2
  else refundUnmanaged found.1 found.2 db

/-- `Refund` of a session on a subscription, at once and in one transaction. The retries of a
failed transaction are one statement here: they fail together or one of them commits. -/
def Session.refundSubscription : Outcome :=
  if s.settled ∨ s.refunded ∨ s.settlementAttempted then { session := s, db }
  else
    match (if f.preConsumed ≤ 0 then .ok db else do
      env.reach .subscription
      refundSubscriptionPreConsume f.requestId db) with
    | .error e => { logged := [e], session := s, db }
    | .ok db => { session := { s with refunded := true }, db }

/-- `needsRefundLocked` of a session on a wallet. -/
def Session.NeedsRefund : Prop :=
  ¬(s.settled ∨ s.refunded ∨ s.fundingSettled ∨ s.settlementAttempted) ∧ 0 < s.tokenConsumed
  deriving Decidable

/-- A refund in the background, with the amount for the token that was copied for it. -/
structure RefundTask where
  tokenConsumed : ℤ

/-- `Refund` of a session on a wallet: the refund it schedules, and the session. Refunds are
admitted until the process shuts down. -/
def Session.refundWallet : Option RefundTask × Session :=
  if s.settled ∨ s.refunded ∨ ¬s.NeedsRefund then (none, s)
  else (some ⟨s.tokenConsumed⟩, { s with refunded := true })

/-- `WalletFunding.Refund`. -/
def WalletFunding.refund (users : Table User) : Except Failure (Table User) :=
  if w.consumed ≤ 0 then return users
  else increaseUserQuota env .moveWallet users w.userId w.consumed

/-- The token's part of a refund. -/
def RefundTask.refundToken (task : RefundTask) (info : RelayInfo) (tokens : Table Token) :
    Except Failure (Table Token) :=
  if 0 < task.tokenConsumed ∧ info.UsesToken then
    increaseTokenQuota env .moveToken tokens info.tokenId task.tokenConsumed
  else return tokens

/-- Run a scheduled refund. It reads what the wallet's funding has consumed when it runs. -/
def RefundTask.run (task : RefundTask) (s : Session) (w : WalletFunding) (db : Db) : Outcome :=
  let (walletErrors, users) := match w.refund env db.users with
    | .ok users => (([] : List Failure), users)
    | .error e => ([e], db.users)
  let (tokenErrors, tokens) := match task.refundToken env s.info db.tokens with
    | .ok tokens => (([] : List Failure), tokens)
    | .error e => ([e], db.tokens)
  { logged := walletErrors ++ tokenErrors, session := s, db := { db with users, tokens } }

end LmmApi.Billing
