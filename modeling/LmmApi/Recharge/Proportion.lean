import LmmApi.Lib.GoInt
import LmmApi.Recharge.Ledger
import Mathlib.Data.Rat.Floor
import Mathlib.Tactic.FieldSimp
import Mathlib.Tactic.Linarith

/-!
# The quota of a refund

A refund takes back the part of the quota that the refunded amount is of the amount paid. The target
is computed from the total refunded so far, so that the roundings of several refunds do not add up.
-/

namespace LmmApi.Recharge

open Go

section

variable (div : ℤ → ℤ → ℚ)

/-- `proportionalRefundTarget`. The integer part of a decimal keeps the low 64 bits. -/
def proportionalRefundTarget (totalQuota paidMicros refundedMicros : ℤ) : ℤ :=
  if totalQuota ≤ 0 ∨ paidMicros ≤ 0 ∨ refundedMicros ≤ 0 then 0
  else
    let target := wrap (div (totalQuota * refundedMicros) paidMicros + 1 / 2).floor
    if target < 0 then 0 else if totalQuota < target then totalQuota else target

def proportionalRefundDelta (totalQuota paidMicros alreadyRefundedQuota alreadyRefundedMicros
    refundMicros : ℤ) : ℤ :=
  if totalQuota ≤ 0 ∨ paidMicros ≤ 0 ∨ refundMicros ≤ 0 then 0
  else
    let target := proportionalRefundTarget div totalQuota paidMicros
      (alreadyRefundedMicros + refundMicros)
    if target < alreadyRefundedQuota then 0 else target - alreadyRefundedQuota

end

/-- `PaymentRefundResult`. -/
structure RefundResult where
  userId : ℕ
  quotaDebited : ℤ
  created : Bool

variable {total paid : ℤ}

/-! ## Exactness -/

/-- The share `refunded / paid` of the quota, rounded to the nearest integer, a half up. -/
def refundShare (total paid refunded : ℤ) : ℤ := (2 * (total * refunded) + paid) / (2 * paid)

variable {refunded refunded' : ℤ}

theorem refundShare_zero (total : ℤ) (hp : 0 < paid) : refundShare total paid 0 = 0 := by
  rw [refundShare, mul_zero, mul_zero, zero_add]
  exact Int.ediv_eq_zero_of_lt hp.le (by omega)

theorem refundShare_self (total : ℤ) (hp : 0 < paid) : refundShare total paid paid = total := by
  have hexp : 2 * (total * paid) + paid = paid + total * (2 * paid) := by ring
  rw [refundShare, hexp, Int.add_mul_ediv_right _ _ (by omega),
    Int.ediv_eq_zero_of_lt hp.le (by omega), zero_add]

section

variable (htot : 0 ≤ total) (hp : 0 < paid)
include htot hp

theorem refundShare_mono (h : refunded ≤ refunded') :
    refundShare total paid refunded ≤ refundShare total paid refunded' := by
  have hmul := mul_le_mul_of_nonneg_left h htot
  exact Int.ediv_le_ediv (by omega) (by omega)

theorem refundShare_le (h : refunded ≤ paid) : refundShare total paid refunded ≤ total :=
  (refundShare_mono htot hp h).trans_eq (refundShare_self total hp)

end

/-- The quotients by the amount paid are good enough to be rounded to an integer: one that lies half
way between two integers is exact, and any other is off by less than `1 / (2 * paid)`. -/
structure Accurate (div : ℤ → ℤ → ℚ) (paid : ℤ) : Prop where
  half : ∀ n k : ℤ, 2 * n = (2 * k + 1) * paid → div n paid = n / paid
  near : ∀ n : ℤ, 0 ≤ n → |div n paid - n / paid| < 1 / (2 * paid)

variable {div : ℤ → ℤ → ℚ} (hdiv : Accurate div paid) (hp : 0 < paid)
include hdiv hp

/-- A half is rounded up because it is exact; otherwise the nearest half is at least `1 / (2 * paid)`
away. -/
theorem Accurate.floor_eq {n : ℤ} (hn : 0 ≤ n) :
    (div n paid + 1 / 2).floor = (2 * n + paid) / (2 * paid) := by
  set q := (2 * n + paid) / (2 * paid)
  have hpq : (0 : ℚ) < paid := Int.cast_pos.2 hp
  have hlow : q * (2 * paid) ≤ 2 * n + paid := Int.ediv_mul_le _ (by omega)
  have hupp : 2 * n + paid + 1 ≤ (q + 1) * (2 * paid) := Int.lt_ediv_add_one_mul_self _ (by omega)
  obtain ⟨hlt, hgt⟩ := abs_lt.1 (hdiv.near n hn)
  have hupq : (2 * n + paid + 1 : ℚ) ≤ (q + 1) * (2 * paid) := by exact_mod_cast hupp
  have habove : (n : ℚ) / paid + 1 / 2 + 1 / (2 * paid) ≤ q + 1 := by
    field_simp
    linarith
  change ⌊div n paid + 1 / 2⌋ = q
  refine Int.floor_eq_iff.2 ⟨?_, by linarith⟩
  obtain heq | hne := hlow.eq_or_lt
  · rw [hdiv.half n (q - 1) (by linarith)]
    have hlowq : (q * (2 * paid) : ℚ) = 2 * n + paid := by exact_mod_cast heq
    field_simp
    linarith
  · have hlowq : (q * (2 * paid) + 1 : ℚ) ≤ 2 * n + paid := by exact_mod_cast hne
    have hbelow : q + 1 / (2 * paid) ≤ (n : ℚ) / paid + 1 / 2 := by
      field_simp
      linarith
    linarith

variable (htot : 0 ≤ total) (hlt : total < 2 ^ 63)
include htot hlt

/-- **The target is the share, rounded once.** -/
theorem proportionalRefundTarget_eq (href : 0 ≤ refunded) (hle : refunded ≤ paid) :
    proportionalRefundTarget div total paid refunded = refundShare total paid refunded := by
  have hsha := refundShare_le htot hp hle
  have hsha₀ := refundShare_zero total hp ▸ refundShare_mono htot hp href
  unfold proportionalRefundTarget
  split
  · rename_i h
    have hz : total * refunded = 0 := by
      rcases h with h | h | h
      · rw [le_antisymm h htot, zero_mul]
      · exact absurd hp (not_lt.2 h)
      · rw [le_antisymm h href, mul_zero]
    rw [refundShare, hz, mul_zero, zero_add, Int.ediv_eq_zero_of_lt hp.le (by omega)]
  · rw [hdiv.floor_eq hp (mul_nonneg htot href), ← refundShare, wrap_of_lt hsha₀ (by omega)]
    simp only []
    rw [if_neg (by omega), if_neg (by omega)]

/-- The refunds after the share of the earlier ones debit the rest of the share. -/
theorem proportionalRefundDelta_eq (href : 0 ≤ refunded) {amount : ℤ} (hamt : 0 < amount)
    (hle : refunded + amount ≤ paid) :
    proportionalRefundDelta div total paid (refundShare total paid refunded) refunded amount =
      refundShare total paid (refunded + amount) - refundShare total paid refunded := by
  have hmono := refundShare_mono htot hp (show refunded ≤ refunded + amount by omega)
  unfold proportionalRefundDelta
  rw [proportionalRefundTarget_eq hdiv hp htot hlt (by omega) hle]
  split
  · have hz : total = 0 := by omega
    simp [refundShare, hz]
  · simp only []
    rw [if_neg (by omega)]

end LmmApi.Recharge
