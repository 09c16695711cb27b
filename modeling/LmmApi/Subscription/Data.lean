import LmmApi.Wallet

/-!
# Subscriptions, tokens and billing records

The tables that managed subscription billing works on: the users with their wallets, the API tokens,
the subscriptions with their used amount and quota version, and one pre-consume record per request.
The fields that no billing operation reads are left out.
-/

namespace LmmApi.Subscription

def maxInt64 : ℤ := 2 ^ 63 - 1
def minInt64 : ℤ := -2 ^ 63

/-- The status of a `UserSubscription`. -/
inductive SubscriptionStatus
  | active
  | expired
  | cancelled
  deriving DecidableEq

/-- A row of the `user_subscriptions` table. `amountTotal` is zero for an unlimited subscription,
and `quotaVersion` counts the periods in which `amountUsed` started again from zero. -/
structure UserSubscription where
  userId : ℕ
  planId : ℕ
  amountTotal : ℤ
  amountUsed : ℤ
  quotaVersion : ℤ
  startTime : ℤ
  endTime : ℤ
  status : SubscriptionStatus
  lastResetTime : ℤ
  nextResetTime : ℤ
  allowWalletOverflow : Bool
  deriving DecidableEq

/-- The part of a `SubscriptionPlan` that resets read. -/
structure SubscriptionPlan where
  quotaResetPeriod : String
  quotaResetCustomSeconds : ℤ
  deriving DecidableEq

/-- The part of a row of the `tokens` table that billing reads and writes. -/
structure Token where
  userId : ℕ
  remainQuota : ℤ
  usedQuota : ℤ
  unlimitedQuota : Bool
  deleted : Bool

/-- The status of a pre-consume record. -/
inductive RecordStatus
  | consumed
  | settling
  | settled
  | refunded
  deriving DecidableEq

/-- `SubscriptionPreConsumeRecord`. -/
structure PreConsumeRecord where
  requestId : String
  userId : ℕ
  userSubscriptionId : ℕ
  preConsumed : ℤ
  billingManaged : Bool := false
  tokenId : ℕ := 0
  tokenConsumed : ℤ := 0
  walletOverflow : Bool := false
  actualQuota : ℤ := 0
  walletConsumed : ℤ := 0
  reservedVersion : ℤ := 0
  status : RecordStatus
  deriving DecidableEq

/-- The tables of managed billing. -/
structure Db where
  users : Table User
  tokens : Table Token
  subscriptions : Table UserSubscription
  records : Table PreConsumeRecord

/-- What an operation reads besides the tables: the time of the database, the plans, and the offset
from UTC of the location in which reset times are aligned. -/
structure Env where
  now : ℤ
  plans : ℕ → Option SubscriptionPlan
  utcOffset : ℤ

/-- An error. -/
inductive Failure
  /-- `gorm.ErrRecordNotFound`. -/
  | recordNotFound
  /-- `gorm.ErrInvalidData`. -/
  | invalidData
  /-- `ErrNoActiveSubscription`. -/
  | noActiveSubscription
  /-- `ErrSubscriptionQuotaInsufficient`, with the text it is wrapped in. -/
  | subscriptionQuotaInsufficient (message : String)
  /-- `ErrSubscriptionBillingTokenQuota`. -/
  | tokenQuotaInsufficient
  /-- The error of `ValidateWalletQuota`. -/
  | walletQuota (quota : ℤ)
  /-- `ErrWalletQuotaOutOfRange`. -/
  | walletQuotaOutOfRange
  /-- Any other error. -/
  | other (message : String)
  /-- An error wrapped by `fmt.Errorf` after a text. -/
  | wrapped (message : String) (cause : Failure)
  /-- The operation does not return. -/
  | diverges
  deriving DecidableEq

/-- `SubscriptionPreConsumeResult`. -/
structure PreConsumeResult where
  userSubscriptionId : ℕ
  preConsumed : ℤ
  amountTotal : ℤ
  amountUsedBefore : ℤ
  amountUsedAfter : ℤ

/-- `SubscriptionBillingResult`. -/
structure BillingResult where
  requestId : String
  status : RecordStatus
  actualQuota : ℤ
  reservedQuota : ℤ
  subscriptionQuota : ℤ
  walletQuota : ℤ
  tokenQuota : ℤ

def subscriptionBillingResult (r : PreConsumeRecord) : BillingResult where
  requestId := r.requestId
  status := r.status
  actualQuota := r.actualQuota
  reservedQuota := r.preConsumed
  subscriptionQuota := match r.status with
    | .settled => r.actualQuota - r.walletConsumed
    | .refunded => 0
    | _ => r.preConsumed
  walletQuota := r.walletConsumed
  tokenQuota := r.tokenConsumed

end LmmApi.Subscription
