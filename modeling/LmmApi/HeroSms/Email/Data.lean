import LmmApi.HeroSms.Provider
import LmmApi.Lib.UniqueTable

/-!
# Orders of e-mail addresses

A row of `hero_sms_email_orders` is one purchase of up to ten addresses. Each address is a row of
`hero_sms_email_activations` with its share of the price, and the rows of
`hero_sms_email_quota_ledgers` are what an order took from the wallet of its user and gave back. An
order that fails gives everything back; otherwise each activation whose address turned out not to be
the one that was ordered gives back its share.

Ciphertexts stand for what they encrypt: the e-mail address of an activation, and the ids that the
provider listed before the purchase. The code and the message of an activation, which only its user
reads, are left out. Ids are numbers, in the order of creation, and the clock counts nanoseconds.
-/

namespace LmmApi.HeroSms.Email

open Go

/-- `HeroSMSEmailOrderStatus…`. -/
inductive OrderStatus
  | pendingProvider
  | completed
  | reconciling
  | purchaseUnknown
  | failed
  deriving DecidableEq

/-- `HeroSMSEmailActivationStatus…`. -/
inductive Status
  | pendingProvider
  | active
  | completed
  | reconciling
  | cancelPending
  | cancelled
  | expired
  | refunded
  deriving DecidableEq

/-- `HeroSMSEmailCancelReason…`. -/
inductive CancelReason
  | user
  | priceChanged
  | currencyMismatch
  | badUpstream
  deriving DecidableEq

inductive Operation
  | purchase
  | reorder
  deriving DecidableEq

def Operation.text : Operation → String
  | purchase => "purchase"
  | reorder => "reorder"

/-- `HeroSMSEmailOrder`. -/
structure Order where
  userId : ℕ
  operation : Operation
  idempotencyKeyHash : String
  requestPayloadHash : String
  site : String
  domain : String
  quantity : ℕ
  status : OrderStatus
  reservedUnitCost : ℚ
  chargeQuota : ℤ
  refundedQuota : ℤ := 0
  lastErrorCode : String
  lastErrorMessage : String
  snapshot : List String
  lastReconciledAt : ℤ := 0
  updatedAt : ℤ

def Order.keys (o : Order) : List String := [o.idempotencyKeyHash]

/-- `HeroSMSEmailActivation`. -/
structure Activation where
  orderId : ℕ
  userId : ℕ
  slot : ℕ
  status : Status
  site : String
  domain : String
  providerId : Option String := none
  email : String := ""
  chargeQuota : ℤ
  cancelReason : Option CancelReason := none
  refundQuota : ℤ := 0
  lastReconciledAt : ℤ := 0
  updatedAt : ℤ

def Activation.keys (a : Activation) : List String := a.providerId.toList

/-- `IdempotencyKey` of a ledger row. -/
inductive LedgerKey
  | reserve (order : ℕ)
  | orderFailure (order : ℕ)
  | refund (activation : ℕ) (reason : Option CancelReason)
  deriving DecidableEq

/-- `HeroSMSEmailQuotaLedger`. -/
structure Ledger where
  userId : ℕ
  orderId : ℕ
  activationId : Option ℕ := none
  amountQuota : ℤ
  key : LedgerKey

def Ledger.keys (l : Ledger) : List LedgerKey := [l.key]

/-- The tables, the settings and the clock. -/
structure Db where
  users : Table User
  orders : UniqueTable Order Order.keys
  activations : UniqueTable Activation Activation.keys
  ledger : UniqueTable Ledger Ledger.keys
  settings : Settings
  now : ℤ

/-- The clock in seconds. -/
def Db.unix (db : Db) : ℤ := db.now / 10 ^ 9

/-- `herosms.EmailRecord`. -/
structure Record where
  id : String
  email : String
  code : String := ""
  message : String := ""
  status : String := ""
  cost : ℚ
  currencyCode : ℤ

/-- `herosms.EmailListItem`. -/
structure ListItem where
  id : String
  email : String
  site : String

/-- A product of `ListDomains`. -/
structure Product where
  name : String
  count : ℤ
  cost : ℚ

/-- The content of a product id. The numbers are `none` if they are no decimal numbers. -/
structure QuoteToken where
  site : String
  domain : String
  cost : Option ℚ
  multiplier : Option ℚ
  issuedAt : ℤ

/-- The libraries: `sha256Hex`, the JSON of a purchase request with the activation it orders again,
and the decryption of a product id. -/
structure Env where
  sha256Hex : String → String
  marshalRequest : Operation → String → ℤ → Option ℕ → String
  decodeQuote : String → Option QuoteToken

/-- The lower-case name without a final dot that `normalizeHeroSMSName` checks. -/
def lowerName (value : String) : String := toLower (trimSuffix (trimSpace value) ".")

/-- `normalizeHeroSMSName`. -/
def normalizeName (value : String) : Option String :=
  let name := lowerName value
  if name ≠ "" ∧ len name ≤ 253 ∧ ¬ hasPrefix name "." ∧ ¬ hasSuffix name "." ∧
      ¬ contains name ".." ∧ name.toList.all fun c =>
        ('a' ≤ c ∧ c ≤ 'z') ∨ ('0' ≤ c ∧ c ≤ '9') ∨ c = '.' ∨ c = '-' then some name
  else none

/-- What is stored of a text: nothing of a blank one. -/
def stored (value : String) : String := if trimSpace value = "" then "" else value

/-- `quotaForSlot`, where slots count from one. -/
def quotaForSlot (total : ℤ) (quantity slot : ℕ) : ℤ :=
  if quantity ≤ 1 then total
  else if 1 ≤ slot ∧ (slot : ℤ) ≤ total.tmod quantity then total.tdiv quantity + 1
  else total.tdiv quantity

/-- The addresses of a page loop, without blank ids and ids that were there before: the loop of
`listHeroSMSEmailsForReconciliation`. -/
def collect : List (List ListItem) → List ListItem → List ListItem
  | [], items => items
  | page :: pages, items =>
    let fresh := page.foldl (fun seen item =>
      if trimSpace item.id = "" ∨ (items ++ seen).any (fun i => trimSpace i.id = trimSpace item.id) then
        seen
      else seen ++ [item]) []
    if page.length < 100 ∨ fresh = [] then items ++ fresh else collect pages (items ++ fresh)

/-- `FindEmailByExactAddress` in the addresses that the provider finds. -/
def findByExactAddress (address : String) (items : List ListItem) : Option ListItem :=
  if trimSpace address = "" then none
  else items.find? fun i => equalFold (trimSpace i.email) (trimSpace address)

end LmmApi.HeroSms.Email
