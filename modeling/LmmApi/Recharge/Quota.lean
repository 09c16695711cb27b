import Mathlib.Data.Rat.Floor
import LmmApi.Recharge.Data

/-!
# The amount and the quota of a top-up

An order of wallet quota has two numbers that matter for money: the amount that is expected, in
millionths of the currency, and the quota that its payment credits. New orders store both when they
are created. Old ones stored a `float64` amount and the number of units, from which the two are
computed, and some of them are not external payments at all.
-/

namespace LmmApi.Recharge

open Go

/-- The clock, the quota of one unit of a top-up (`common.QuotaPerUnit`), which an administrator can
change, and the quotients of decimals, which keep as many digits as their library does. A price that
is not a number is not modelled. -/
structure Env where
  now : ℤ
  quotaPerUnit : ℚ
  div : ℤ → ℤ → ℚ

variable (t : TopUp)

/-- `expectedTopUpAmountMicros`. The integer part of a decimal keeps the low 64 bits. -/
def expectedTopUpAmountMicros : ℤ :=
  if 0 < t.expectedAmountMicros then t.expectedAmountMicros
  else if t.money ≤ 0 then 0
  else (t.money * 1000000 + 1 / 2).floor.bmod (2 ^ 64)

def linuxDOCreditPaymentMethods : List String := ["ldc", "linuxdo", "linux_do", "linuxdo_credit"]

/-- `isLegacyLinuxDOCreditTopUp`: points that went through the Epay adapter. -/
def isLegacyLinuxDOCreditTopUp : Bool :=
  if equalFold (trimSpace t.paymentProvider) paymentProviderEpay = false then false
  else
    let method := toLower (trimSpace t.paymentMethod)
    if method ∈ linuxDOCreditPaymentMethods then true
    else if method ≠ paymentProviderEpay then false
    else !equalFold (trimSpace t.settlementCurrency) "CNY" ||
      (t.expectedAmountMicros ≤ 0 && t.settledAmountMicros ≤ 0)

def epayHasImmutableSettlementSnapshot : Bool :=
  t.paymentProvider = paymentProviderEpay && 0 < t.expectedAmountMicros && 0 < t.creditedQuota &&
    trimSpace t.settlementCurrency ≠ ""

def knownExternalTopUpSource : Bool :=
  if isLegacyLinuxDOCreditTopUp t then false
  else if t.paymentProvider ∈ [paymentProviderEpay, paymentProviderStripe, paymentProviderCreem,
      paymentProviderWaffo, paymentProviderWaffoPancake] then true
  else if trimSpace t.paymentProvider ≠ "" then false
  else t.paymentMethod ∈ ["stripe", "creem", "waffo", "waffo_pancake", "alipay", "wxpay"]

variable (env : Env)

/-- `standardTopUpCreditedQuotaChecked`; nothing is returned for `ErrInvalidTopUpQuota`. A quota
that does not fit 64 bits is greater than the bound as well. -/
def standardTopUpCreditedQuotaChecked (amount : ℤ) : Option ℤ :=
  if amount ≤ 0 then some 0
  else if env.quotaPerUnit ≤ 0 then none
  else
    let quota := (amount * env.quotaPerUnit).floor
    if quota ≤ 0 ∨ maxWalletQuota < quota then none else some quota

def standardTopUpCreditedQuota (amount : ℤ) : ℤ :=
  (standardTopUpCreditedQuotaChecked env amount).getD 0

def normalizedTopUpCreditedQuota (t : TopUp) : ℤ :=
  if 0 < t.creditedQuota ∧
      (knownExternalTopUpSource t = true ∨ epayHasImmutableSettlementSnapshot t = true) then
    t.creditedQuota
  else if knownExternalTopUpSource t = false then 0
  else if t.paymentProvider = paymentProviderCreem ∨ t.paymentMethod = "creem" then t.amount
  else if t.paymentProvider ∈ [paymentProviderEpay, paymentProviderStripe, paymentProviderWaffo,
        paymentProviderWaffoPancake] ∨
      t.paymentMethod ∈ ["stripe", "waffo", "waffo_pancake"] ∨
      (trimSpace t.paymentProvider = "" ∧ t.paymentMethod ∈ ["alipay", "wxpay"]) then
    standardTopUpCreditedQuota env t.amount
  else 0

end LmmApi.Recharge
