import LmmApi.Lib.GoText
import LmmApi.Wallet
import Mathlib.Data.Rat.Floor

/-!
# HeroSMS

HeroSMS sells telephone numbers and e-mail addresses that receive one message. The platform resells
them: it takes the price from the wallet of a user, buys from the provider, and pays back what turns
out not to be due.

A price is a decimal number of US dollars. The settings with which it is converted to quota can
change at any time; the unit and the multiplier are not negative, and a multiplier of zero stands
for one that is missing or invalid.
-/

namespace LmmApi.HeroSms

open Guarded

/-- The errors of the client of the provider. -/
inductive ProviderError
  | unauthorized
  | notFound
  | noSMSNumbersAvailable
  | providerBalanceInsufficient
  | invalidRequest
  | rateLimited
  | upstreamBusy
  | upstreamTimeout
  | badResponse
  | other
  deriving DecidableEq

/-- `HeroSMSError`. -/
structure HeroError where
  status : ℕ
  code : String
  message : String
  deriving DecidableEq

/-- `mapHeroSMSProviderError`. -/
def mapProviderError : ProviderError → HeroError
  | .unauthorized => ⟨503, "NOT_CONFIGURED", "HeroSMS credentials are invalid"⟩
  | .notFound => ⟨404, "NOT_FOUND", "HeroSMS resource not found"⟩
  | .noSMSNumbersAvailable => ⟨409, "PRICE_CHANGED", "HeroSMS has no matching phone numbers"⟩
  | .providerBalanceInsufficient =>
    ⟨503, "UPSTREAM_BUSY", "HeroSMS provider balance is insufficient"⟩
  | .invalidRequest => ⟨400, "INVALID_REQUEST", "HeroSMS request was rejected"⟩
  | .rateLimited => ⟨429, "RATE_LIMITED", "HeroSMS rate limited the request"⟩
  | .upstreamBusy => ⟨502, "UPSTREAM_BUSY", "HeroSMS upstream is busy"⟩
  | .upstreamTimeout =>
    ⟨202, "UPSTREAM_TIMEOUT", "HeroSMS purchase timed out and is pending reconciliation"⟩
  | .badResponse => ⟨502, "BAD_UPSTREAM_RESPONSE", "HeroSMS returned an invalid response"⟩
  | .other => ⟨502, "UPSTREAM_BUSY", "HeroSMS request failed"⟩

/-- After these errors the provider may have done what was asked:
`heroSMSSMSPurchaseMayHaveSucceeded` and `heroSMSSMSComplaintOutcomeUnknown`. -/
def ProviderError.outcomeUnknown : ProviderError → Bool
  | .upstreamTimeout | .upstreamBusy | .badResponse => true
  | _ => false

/-- What a request or a transaction fails with. -/
inductive Failure
  | hero (e : HeroError)
  | recordNotFound
  | uniqueConstraint
  | walletQuotaOutOfRange
  /-- The amount is no `int32`. -/
  | quotaClamp
  | refundExceedsReserved
  /-- An error of the database, of the encryption or of the configuration. -/
  | internal
  deriving DecidableEq

/-- `common.QuotaPerUnit` and the option `hero_sms.price_multiplier`. -/
structure Settings where
  quotaPerUnit : ℚ≥0
  multiplier : ℚ≥0
  deriving DecidableEq

/-- `setting.HeroSMSCurrencyCode`. -/
def currencyCode : ℤ := 840

def maxQuota : ℤ := 2 ^ 31 - 1
def minQuota : ℤ := -2 ^ 31

/-- `GetTrustQuota`. -/
def Settings.trustQuota (s : Settings) : ℤ := (10 * (s.quotaPerUnit : ℚ)).floor

/-- `heroSMSMultiplierDecimal`. -/
def Settings.multiplierDecimal (s : Settings) : Except Failure ℚ≥0 := do
  require (.hero ⟨400, "INVALID_REQUEST", "invalid HeroSMS price multiplier"⟩) (s.multiplier ≠ 0)
  return s.multiplier

/-- `heroSMSChargeQuota`. -/
def Settings.chargeQuota (s : Settings) (priceUSD : ℚ) : Except Failure ℤ := do
  let quota := (priceUSD * s.quotaPerUnit).ceil
  require .quotaClamp (minQuota ≤ quota ∧ quota ≤ maxQuota)
  return quota

theorem Settings.chargeQuota_nonneg {s : Settings} {price : ℚ} {quota : ℤ}
    (h : s.chargeQuota price = .ok quota) (hprice : 0 ≤ price) : 0 ≤ quota := by
  simp only [chargeQuota, eq_ok] at h
  obtain ⟨_, -, rfl⟩ := h
  have hprod : 0 ≤ price * (s.quotaPerUnit : ℚ) := mul_nonneg hprice s.quotaPerUnit.2
  exact_mod_cast hprod.trans Rat.le_ceil

/-- A user that is not deleted. -/
def activeUser (users : Table User) (id : ℕ) : Except Failure User :=
  orFail ((users.get? id).filter fun u => !u.deleted) .recordNotFound

/-- `ApplyWalletQuotaDelta` for an amount that is not zero. -/
def applyWalletQuotaDelta (users : Table User) (id : ℕ) (delta : ℤ) :
    Except Failure (Table User) := do
  require .internal (0 < id)
  let _ ← activeUser users id
  updateWalletQuotaByDelta users id (fun u => u.deleted = false) delta .walletQuotaOutOfRange
    .walletQuotaOutOfRange

theorem applyWalletQuotaDelta_eq_ok {users users' : Table User} {id : ℕ} {delta : ℤ}
    (h : applyWalletQuotaDelta users id delta = .ok users') :
    ∃ u, users.get? id = some u ∧ users' = users.modify id (User.addQuota delta) := by
  simp only [applyWalletQuotaDelta, bind_eq_ok, updateWalletQuotaByDelta_eq_ok] at h
  obtain ⟨-, -, -, -, -, u, hu, -, -, rfl⟩ := h
  exact ⟨u, hu, rfl⟩

end LmmApi.HeroSms
