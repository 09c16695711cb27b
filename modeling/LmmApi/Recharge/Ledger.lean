import LmmApi.Recharge.Data

/-!
# The finance ledger

The ledger is append-only, and a row of it is bound to the order it belongs to by a token in its
note. A refund has the id of its provider event in its idempotency key, so that a replay of the
event finds the row of the first delivery.
-/

namespace LmmApi.Recharge

open Go

/-- `FinanceLedgerEntry`. -/
structure LedgerEntry where
  entryType : String
  category : String
  amountMicros : ℤ
  currency : String
  direction : ℤ
  paymentMethod : String
  paymentProvider : String
  userId : Option ℕ
  sourceType : String
  sourceId : String
  note : String
  occurredAt : ℤ
  createdBy : ℤ
  idempotencyKey : String

def financeEntryRevenue : String := "revenue"
def financeSourceRefund : String := "refund"
def financeCurrencyUsd : String := "USD"
def financeDirectionCredit : ℤ := 1
def financeDirectionDebit : ℤ := -1

/-- The greatest amount of a ledger row. -/
def maxLedgerMicros : ℤ := 9000000000000000

/-- The columns of an entry as `normalizeFinanceEntry` writes them. An entry without an idempotency
key would get a random one; every modelled entry has a key. -/
def LedgerEntry.trimmed (entry : LedgerEntry) : LedgerEntry :=
  { entry with
    entryType := trimSpace entry.entryType
    category := trimSpace entry.category
    currency := if toUpper (trimSpace entry.currency) = "" then financeCurrencyUsd
      else toUpper (trimSpace entry.currency)
    paymentMethod := trimSpace entry.paymentMethod
    paymentProvider := trimSpace entry.paymentProvider
    sourceType := trimSpace entry.sourceType
    sourceId := trimSpace entry.sourceId
    note := trimSpace entry.note
    idempotencyKey := trimSpace entry.idempotencyKey }

/-- The checks of `normalizeFinanceEntry`. -/
def LedgerEntry.Valid (entry : LedgerEntry) : Prop :=
  0 < entry.amountMicros ∧ entry.amountMicros ≤ maxLedgerMicros ∧
    (entry.direction = financeDirectionCredit ∨ entry.direction = financeDirectionDebit) ∧
    entry.sourceType ≠ "" ∧ 0 < entry.occurredAt ∧ 0 < entry.createdBy ∧
    entry.category.length ≤ 64 ∧ entry.note.length ≤ 500 ∧ len entry.currency ≤ 8 ∧
    entry.entryType ∈ ["revenue", "expense", "token_cost", "adjustment"]
  deriving Decidable

/-- `normalizeFinanceEntry`; nothing is returned for `ErrFinanceEntryInvalid`. -/
def normalizeFinanceEntry (entry : LedgerEntry) : Option LedgerEntry :=
  if entry.trimmed.Valid then some entry.trimmed else none

/-! ## The binding of a refund to its order -/

def refundNoteContainsTradeNo (note tradeNo : String) : Bool :=
  trimSpace note ≠ "" ∧ tradeNo ≠ "" ∧
    ∃ token ∈ fields note, token = s!"refund_trade_no={tradeNo}" ∨ token = s!"trade_no={tradeNo}"

def refundNoteHasOrderBinding (note : String) : Bool :=
  (fields note).any fun token => hasPrefix token "refund_trade_no=" || hasPrefix token "trade_no="

def bindRefundNote (note tradeNo : String) : String :=
  let note := trimSpace note
  if refundNoteContainsTradeNo note tradeNo then note
  else
    let marker := s!"refund_trade_no={tradeNo}"
    if note = "" then marker
    else if (s!"{note} {marker}").length ≤ 500 then s!"{note} {marker}"
    else marker

def refundLedgerBindsRequest (ledger : LedgerEntry)
    (tradeNo providerEventId paymentMethod paymentProvider currency : String) (userId : ℕ) : Prop :=
  ledger.sourceType = financeSourceRefund ∧ ledger.sourceId = providerEventId ∧
    equalFold (trimSpace ledger.paymentMethod) paymentMethod = true ∧
    equalFold (trimSpace ledger.paymentProvider) paymentProvider = true ∧
    equalFold (trimSpace ledger.currency) currency = true ∧
    ledger.userId = some userId ∧ refundNoteContainsTradeNo ledger.note tradeNo = true
  deriving Decidable

end LmmApi.Recharge
