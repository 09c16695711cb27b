import LmmApi.HeroSms.Provider
import LmmApi.Lib.UniqueTable

/-!
# Orders of telephone numbers

A row of `hero_sms_sms_orders` is one purchase of a telephone number, and the rows of
`hero_sms_sms_quota_ledgers` are what it took from the wallet of its user and gave back. An order
reserves its price before the provider is asked. It becomes active with the price the provider took,
and the rest is paid back; if it fails or is cancelled everything is.

Ciphertexts are left out except the snapshot of the known activations, which is kept as the list it
encrypts; a failure to encrypt or decrypt is decided by the environment. Order ids are numbers, in
the order of creation, and the key of a ledger row is its prefix with the id of the order.
-/

namespace LmmApi.HeroSms.Sms

open Go

/-- `HeroSMSSMSOrderStatus…`. -/
inductive Status
  | pendingProvider
  | purchaseUnknown
  | active
  | cancelPending
  | completed
  | cancelled
  | failed
  deriving DecidableEq

/-- `heroSMSSMSTerminalStatuses`. -/
def Status.Terminal (s : Status) : Prop := s = .completed ∨ s = .cancelled ∨ s = .failed
  deriving Decidable

/-- `HeroSMSSMSComplaintStatus…`, with the empty one. -/
inductive ComplaintStatus
  | none
  | submitting
  | submitted
  | submitUnknown
  | failed
  | closedCode
  | closedRefund
  deriving DecidableEq

/-- `heroSMSSMSComplaintNeedsReconciliation`. -/
def ComplaintStatus.needsReconciliation : ComplaintStatus → Bool
  | .submitting | .submitted | .submitUnknown => true
  | _ => false

/-- `HeroSMSSMSOrder`. -/
structure Order where
  userId : ℕ
  idempotencyKeyHash : String
  requestPayloadHash : String
  countryId : ℤ
  service : String
  operator : String
  status : Status
  priceMultiplier : ℚ≥0
  providerPriceCNY : ℚ
  reservedQuota : ℤ
  chargeQuota : ℤ
  refundedQuota : ℤ := 0
  providerId : Option String := none
  knownIds : List String
  complaintType : String := ""
  complaintStatus : ComplaintStatus := .none
  complaintSubmitAttempts : ℤ := 0
  complaintNextRetryAt : ℤ := 0
  complaintLastCheckedAt : ℤ := 0
  providerCancelAcceptedAt : ℤ := 0
  cancelFinalStatus : Option Status := none
  cancelErrorCode : String := ""
  cancelErrorMessage : String := ""
  lastErrorCode : String
  lastErrorMessage : String
  providerRequestStartedAt : ℤ
  providerExpiresAt : ℤ := 0
  createdAt : ℤ
  updatedAt : ℤ

/-- The values under the unique indexes of the orders. -/
inductive OrderKey
  | idempotency (hash : String)
  | provider (id : String)
  deriving DecidableEq

def Order.keys (o : Order) : List OrderKey :=
  .idempotency o.idempotencyKeyHash :: (o.providerId.map .provider).toList

/-- `IdempotencyKey` of a ledger row. -/
inductive LedgerKey
  | reserve (order : ℕ)
  | priceRefund (order : ℕ)
  | refund (order : ℕ)
  deriving DecidableEq

/-- `HeroSMSSMSQuotaLedger`. -/
structure Ledger where
  userId : ℕ
  orderId : ℕ
  amountQuota : ℤ
  key : LedgerKey

def Ledger.keys (l : Ledger) : List LedgerKey := [l.key]

/-- The tables, the settings and the clock. -/
structure Db where
  users : Table User
  orders : UniqueTable Order Order.keys
  ledger : UniqueTable Ledger Ledger.keys
  settings : Settings
  now : ℤ

/-- `herosms.SMSActivation`: a purchase that the client has checked. The end time is `none` if it is
no RFC 3339 time. -/
structure Activation where
  id : String
  phoneNumber : String
  cost : ℚ
  cost_pos : 0 < cost
  currencyCode : ℤ
  endTime : Option ℤ

/-- `herosms.SMSActiveActivation`. The time is `none` if it is missing or cannot be parsed. -/
structure ActiveActivation where
  id : String
  service : String
  phoneNumber : String
  cost : ℚ
  currencyCode : ℤ
  countryCode : ℤ
  operator : String
  time : Option ℤ
  endTime : Option ℤ

/-- `herosms.SMSPriceTier`. -/
structure Tier where
  count : ℤ
  price : ℚ

/-- The content of an offer id. The cost is `none` if it is no decimal number. -/
structure Quote where
  version : ℤ
  userId : ℕ
  countryId : ℤ
  service : String
  operator : String
  cost : Option ℚ
  multiplier : ℚ≥0
  currencyCode : ℤ
  issuedAt : ℤ
  deriving DecidableEq

/-- The libraries: `sha256Hex`, the JSON of a purchase request with an offer id, and the decryption
of an offer id. -/
structure Env where
  sha256Hex : String → String
  marshalRequest : String → String
  decodeQuote : String → Option Quote

def quoteVersion : ℤ := 2
def quoteTTL : ℤ := 2 * 60
def unknownWindow : ℤ := 15 * 60
def complaintWait : ℤ := 2 * 60
def complaintRetryDelay : ℤ := 30
def complaintMaxAttempts : ℤ := 3

def complaintTypes : List String :=
  ["NUMBER_BLOCKED", "NUMBER_ALREADY_IN_USE", "SMS_CODE_DISMATCH", "SMS_NOT_RECEIVED",
    "CODE_SENT_TO_APP", "INCOMING_CALL_NUMBER", "INCOMING_CALL_VOICE"]

/-- `normalizeHeroSMSSMSComplaintType`. -/
def normalizeComplaintType (value : String) : Option String :=
  if trimSpace value ∈ complaintTypes then some (trimSpace value) else none

end LmmApi.HeroSms.Sms
