import LmmApi.Lib.GoText
import LmmApi.Wallet

/-!
# Top-up orders

A row of the `top_ups` table is one order of wallet quota, or the receipt of a subscription order.
An amount in `float64` is the value of the shortest decimal that reads back as the number, which is
what `decimal.NewFromFloat` makes of it.
-/

namespace LmmApi.Recharge

/-- `TopUpStatus`. -/
inductive OrderStatus
  | pending
  | success
  | failed
  | expired
  deriving DecidableEq

/-- A row of the `top_ups` table. -/
structure TopUp where
  userId : ℕ
  amount : ℤ := 0
  platformAmountMicros : ℤ := 0
  creditedQuota : ℤ := 0
  expectedAmountMicros : ℤ := 0
  settledAmountMicros : ℤ := 0
  settlementCurrency : String := ""
  money : ℚ := 0
  refundedAmountMicros : ℤ := 0
  refundedQuota : ℤ := 0
  tradeNo : String
  paymentMethod : String := ""
  paymentProvider : String := ""
  discountCodeId : ℤ := 0
  providerProductId : String := ""
  providerStoreId : String := ""
  providerEventId : Option String := none
  providerTransactionId : Option String := none
  failureReasonCode : String := ""
  createTime : ℤ := 0
  completeTime : ℤ := 0
  status : OrderStatus := .pending
  deriving DecidableEq

def paymentProviderEpay : String := "epay"
def paymentProviderStripe : String := "stripe"
def paymentProviderCreem : String := "creem"
def paymentProviderWaffo : String := "waffo"
def paymentProviderWaffoPancake : String := "waffo_pancake"

/-- An error of a transaction, under its Go name. -/
inductive Failure
  /-- `gorm.ErrInvalidData`. -/
  | invalidData
  /-- `gorm.ErrRecordNotFound`. -/
  | recordNotFound
  /-- A unique index refuses the write. -/
  | uniqueConstraint
  | topUpNotFound
  | topUpStatusInvalid
  | paymentMethodMismatch
  | paymentEvidenceConflict
  | invalidPaymentFailureReason
  | invalidTopUpQuota
  | topUpQuotaLimitExceeded
  /-- `ErrRefundAmountInvalid`. -/
  | refundAmountInvalid
  /-- `ErrRefundWalletQuotaInsufficient`. -/
  | refundWalletQuotaInsufficient
  /-- `ErrPaymentRefundOrderConflict`. -/
  | paymentRefundOrderConflict
  | financeEntryInvalid
  | discountCodeNotFound
  | discountCodeInactive
  | discountCodeExpired
  | discountCodeMinimum
  | discountCodeExhausted
  | other (message : String)
  deriving DecidableEq

end LmmApi.Recharge
