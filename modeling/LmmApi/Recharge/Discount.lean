import LmmApi.Lib.UniqueTable
import LmmApi.Recharge.Data

/-!
# Discount codes

An order with a discount reserves a use of the code when it is placed, so that two unpaid orders
cannot both take the last one. The settlement of the order consumes the use, also when the
reservation has expired, was released or never existed, and closing the order releases it.

A reservation is looked up by the trade number as it is and stored under the trimmed one. Its row
keeps `expires_time`; the times at which it was made and changed are left out. A deleted code keeps
its row, and its uses are still counted.
-/

namespace LmmApi.Recharge

open Guarded Go

inductive DiscountCodeStatus
  | enabled
  | disabled
  deriving DecidableEq

structure DiscountCode where
  ownerUserId : ℕ := 0
  minAmount : ℤ := 0
  status : DiscountCodeStatus := .enabled
  usedCount : ℤ := 0
  maxUses : ℤ := 0
  startsTime : ℤ := 0
  expiredTime : ℤ := 0
  deleted : Bool := false

inductive ReservationStatus
  | reserved
  | consumed
  | released
  deriving DecidableEq

/-- `DiscountCodeReservation`. -/
structure Reservation where
  discountCodeId : ℤ
  topUpTradeNo : String
  userId : ℕ
  status : ReservationStatus
  expiresTime : ℤ

/-- The unique index on `top_up_trade_no`. -/
def Reservation.keys (r : Reservation) : List String := [r.topUpTradeNo]

/-- The tables of discount codes and reservations. -/
structure Discounts where
  codes : Table DiscountCode
  reservations : UniqueTable Reservation Reservation.keys

/-- `discountCodeReservationTTL`, in seconds. -/
def discountCodeReservationTTL : ℤ := 24 * 60 * 60

/-- The amount of an order that the minimum of a code is compared with. -/
def TopUp.requestedAmount (t : TopUp) : ℚ :=
  if 0 < t.platformAmountMicros then t.platformAmountMicros / 10 ^ 6 else t.amount

/-- `validateDiscountCodeReservationTerms`, for the code under `id`. -/
def validateDiscountCodeReservationTerms (id : ℤ) (code : DiscountCode) (t : TopUp) (now : ℤ) :
    Except Failure Unit := do
  require .discountCodeNotFound (0 < id ∧ t.tradeNo ≠ "")
  require .discountCodeInactive (code.status = .enabled)
  require .discountCodeInactive ¬(0 < code.startsTime ∧ now < code.startsTime)
  require .discountCodeExpired ¬(0 < code.expiredTime ∧ code.expiredTime < now)
  require .discountCodeMinimum (code.minAmount ≤ t.requestedAmount)
  require .discountCodeNotFound (code.ownerUserId = 0 ∨ code.ownerUserId = t.userId)

namespace Discounts

variable (d : Discounts)

/-- The number of reservations of a code that are reserved and have not expired. -/
def active (now : ℤ) (id : ℤ) : ℤ :=
  d.reservations.table.count fun _ r =>
    r.discountCodeId = id ∧ r.status = .reserved ∧ now < r.expiresTime

/-- The reservation of a trade number. -/
def findReservation (tradeNo : String) : Option (ℕ × Reservation) :=
  d.reservations.first? fun _ r => r.topUpTradeNo = tradeNo

/-- One more use of a code. -/
def useCode (id : ℤ) : Table DiscountCode :=
  d.codes.modify id.toNat fun c => { c with usedCount := c.usedCount + 1 }

/-- `releaseDiscountCodeReservationTx`. -/
def release (tradeNo : String) : Discounts :=
  let tradeNo := trimSpace tradeNo
  if tradeNo = "" then d
  else { d with
    reservations := d.reservations.modifyWhere
      (fun _ r => r.topUpTradeNo = tradeNo ∧ r.status = .reserved)
      (fun r => { r with status := .released }) fun _ => rfl }

end Discounts

def reserveDiscountCodeUsage (now : ℤ) (t : TopUp) (d : Discounts) : Except Failure Discounts :=
  if t.discountCodeId ≤ 0 then return d
  else do
    let code ← orFail ((d.codes.get? t.discountCodeId.toNat).filter fun c => !c.deleted)
      .discountCodeNotFound
    validateDiscountCodeReservationTerms t.discountCodeId code t now
    match d.findReservation t.tradeNo with
    | some (_, r) =>
      require .paymentEvidenceConflict (r.discountCodeId = t.discountCodeId ∧ r.userId = t.userId)
      return d
    | none =>
      require .discountCodeExhausted
        ¬(0 < code.maxUses ∧ code.maxUses ≤ code.usedCount + d.active now t.discountCodeId)
      let reservations ← orFail
        (d.reservations.insert? ⟨t.discountCodeId, trimSpace t.tradeNo, t.userId, .reserved,
          now + discountCodeReservationTTL⟩) .uniqueConstraint
      return { d with reservations }

/-- `consumeReservedDiscountCodeUsageTx`. A code that is gone does not block the credit. -/
def consumeReservedDiscountCodeUsage (now : ℤ) (t : TopUp) (d : Discounts) :
    Except Failure Discounts :=
  if t.discountCodeId ≤ 0 then return d
  else match d.findReservation t.tradeNo with
  | some (rid, r) => do
    require .paymentEvidenceConflict (r.discountCodeId = t.discountCodeId ∧ r.userId = t.userId)
    if r.status = .consumed ∨ d.codes.get? t.discountCodeId.toNat = none then return d
    else return {
      codes := d.useCode t.discountCodeId
      reservations := d.reservations.modify rid (fun r => { r with status := .consumed })
        fun _ => rfl }
  | none =>
    if d.codes.get? t.discountCodeId.toNat = none then return d
    else do
      let reservations ← orFail
        (d.reservations.insert? ⟨t.discountCodeId, trimSpace t.tradeNo, t.userId, .consumed, now⟩)
        .uniqueConstraint
      return { codes := d.useCode t.discountCodeId, reservations }

end LmmApi.Recharge
