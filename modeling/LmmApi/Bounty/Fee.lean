import LmmApi.Bounty.Normalize
import Mathlib.Data.Rat.Floor

/-!
# The platform fee is exact

The fee of a slot is computed from the quotient and the remainder of the reward, so that nothing
overflows. It is the exact ceiling of the reward times the rate.
-/

namespace LmmApi.Bounty

open Guarded Go List

/-- The value of a decimal number. -/
def decimalValue (text : List Char) : ℚ :=
  match text.splitOn '.' with
  | [whole] => decimalVal whole
  | whole :: fraction :: _ => decimalVal whole + decimalVal fraction / 10 ^ fraction.length
  | [] => 0

variable {reward slots bps : ℤ}

/-- `feePerSlot64`. -/
def feePerSlot (reward bps : ℤ) : ℤ := reward / 10000 * bps + (reward % 10000 * bps + 9999) / 10000

/-- The numbers that `CalculateOpenSourceBountyPublicationCharge` computes on the way. -/
def chargeSteps (reward slots bps : ℤ) : List ℤ :=
  let fee := feePerSlot reward bps
  [reward * slots, reward / 10000 * bps, reward % 10000 * bps, reward % 10000 * bps + 9999, fee,
    reward - fee, (reward - fee) * slots, fee * slots, (reward - fee) * slots + fee * slots]

/-- One or two digits, and their value in hundredths once zeros were added. -/
theorem decimalVal_of_isDigits {l : List Char} (h : isDigits 1 2 l) :
    let hundredths := decimalVal (l ++ replicate (2 - l.length) '0')
    decimalVal l ≤ 99 ∧ hundredths ≤ 99 ∧ (l.all (· = '0') → hundredths = 0) ∧
      (hundredths : ℚ) / 100 = decimalVal l / 10 ^ l.length := by
  have hdigit {c : Char} (hc : c.isDigit) : digitVal c ≤ 9 := by
    simp only [Char.isDigit, Bool.and_eq_true, decide_eq_true_eq] at hc
    exact Nat.sub_le_sub_right (show c.val.toNat ≤ 57 from hc.2) 48
  have hz : digitVal '0' = 0 := rfl
  simp only [isDigits, Bool.and_eq_true, all_eq_true, decide_eq_true_eq] at h
  obtain ⟨⟨hall, hlo⟩, hhi⟩ := h
  match l with
  | [a] =>
    have := hdigit (hall a mem_cons_self)
    simp [decimalVal, hz]
    exact ⟨by omega, by omega, (· ▸ rfl), by ring⟩
  | [a, b] =>
    have := hdigit (hall a mem_cons_self)
    have := hdigit (hall b (by simp))
    simp [decimalVal]
    exact ⟨by omega, fun ha hb => by simp [ha, hb, hz], by norm_num⟩

/-- A rate is a percentage with two decimals. -/
theorem parseOpenSourceBountyFeeRateBasisPoints_spec {raw : String}
    (h : parseOpenSourceBountyFeeRateBasisPoints raw = some bps) :
    (0 ≤ bps ∧ bps ≤ 10000) ∧ (bps : ℚ) / 100 = decimalValue (trimSpace raw).toList := by
  unfold parseOpenSourceBountyFeeRateBasisPoints at h
  obtain ⟨hpat, h⟩ := Option.ite_none_right_eq_some.1 h
  unfold openSourceBountyFeeRatePattern at hpat
  unfold decimalValue
  generalize (trimSpace raw).toList.splitOn '.' = parts at h hpat ⊢
  match parts, hpat, h with
  | [whole], hpat, rfl =>
    refine ⟨?_, by push_cast; ring⟩
    rcases Bool.or_eq_true_iff.1 hpat with hw | hw
    · rw [of_decide_eq_true hw]
      decide
    · have := (decimalVal_of_isDigits hw).1
      omega
  | [whole, fraction], hpat, rfl =>
    obtain ⟨hf, hw⟩ := Bool.and_eq_true_iff.1 hpat
    obtain ⟨-, hf99, hf0, hfrac⟩ := decimalVal_of_isDigits hf
    refine ⟨?_, by push_cast; rw [← hfrac]; ring⟩
    rcases Bool.or_eq_true_iff.1 hw with hw | hw
    · have := (decimalVal_of_isDigits hw).1
      omega
    · obtain ⟨h100, hz⟩ := Bool.and_eq_true_iff.1 hw
      rw [hf0 hz, of_decide_eq_true h100]
      decide

theorem feePerSlot_eq (reward bps : ℤ) : feePerSlot reward bps = ⌈(reward * bps : ℚ) / 10000⌉ := by
  symm
  rw [Int.ceil_eq_iff, div_le_iff₀ (by norm_num), lt_div_iff₀ (by norm_num), feePerSlot]
  have hrew := congrArg (· * bps) (Int.mul_ediv_add_emod reward 10000)
  have hdiv := Int.mul_ediv_add_emod (reward % 10000 * bps + 9999) 10000
  have hlo := Int.emod_nonneg (reward % 10000 * bps + 9999) (by decide : (10000 : ℤ) ≠ 0)
  have hhi := Int.emod_lt_of_pos (reward % 10000 * bps + 9999) (by decide : (0 : ℤ) < 10000)
  constructor
  all_goals
    norm_cast
    linarith

theorem chargeSteps_bounds (hr : 0 < reward) (hs : 0 < slots) (hmax : reward ≤ maxInt / slots)
    (hb : 0 ≤ bps ∧ bps ≤ 10000) : ∀ x ∈ chargeSteps reward slots bps, 0 ≤ x ∧ x ≤ maxInt := by
  obtain ⟨hb0, hb1⟩ := hb
  -- What is at most the reward fits, also when it is taken for every slot.
  have hfit {y : ℤ} (hy : 0 ≤ y ∧ y ≤ reward) :
      (0 ≤ y ∧ y ≤ maxInt) ∧ 0 ≤ y * slots ∧ y * slots ≤ maxInt := by
    have hslots := Int.mul_le_mul_of_nonneg_right (hy.2.trans hmax) hs.le
    have hone := Int.mul_le_mul_of_nonneg_left (Int.add_one_le_of_lt hs) hy.1
    have htop := Int.ediv_mul_le maxInt hs.ne'
    exact ⟨⟨hy.1, by linarith⟩, mul_nonneg hy.1 hs.le, by linarith⟩
  have hfee : 0 ≤ feePerSlot reward bps ∧ feePerSlot reward bps ≤ reward := by
    rw [feePerSlot_eq, Int.ceil_le, div_le_iff₀ (by norm_num)]
    have := Int.mul_le_mul_of_nonneg_left hb1 hr.le
    exact ⟨Int.ceil_nonneg (by positivity), by exact_mod_cast this⟩
  have hnet : 0 ≤ reward - feePerSlot reward bps ∧ reward - feePerSlot reward bps ≤ reward :=
    ⟨Int.sub_nonneg_of_le hfee.2, Int.sub_le_self _ hfee.1⟩
  have hmod := Int.emod_lt_of_pos reward (by decide : (0 : ℤ) < 10000)
  have hdm := Int.mul_ediv_add_emod reward 10000
  have hq0 : 0 ≤ reward / 10000 := by positivity
  have hm0 := Int.emod_nonneg reward (by decide : (10000 : ℤ) ≠ 0)
  have hqb := Int.mul_le_mul_of_nonneg_left hb1 hq0
  have hmb := Int.mul_le_mul_of_nonneg_left hb1 hm0
  have hm : 0 ≤ reward % 10000 * bps ∧ reward % 10000 * bps + 9999 ≤ maxInt :=
    ⟨by positivity, by rw [maxInt]; linarith⟩
  simp only [chargeSteps, forall_mem_cons, ← add_mul, sub_add_cancel]
  exact ⟨(hfit ⟨hr.le, le_rfl⟩).2, (hfit ⟨by positivity, by linarith⟩).1, by omega, by omega,
    (hfit hfee).1, (hfit hnet).1, (hfit hnet).2, (hfit hfee).2, (hfit ⟨hr.le, le_rfl⟩).2, nofun⟩

/-- **The fee of a slot is exact**, whatever the reward, the slots and the rate that are accepted.
Nothing overflows on the way, the charge fails exactly when the fee takes the whole reward, and else
it is split without a rest. -/
theorem publication_charge_exact {e : Env} {p : Project} {gross : ℤ}
    (hcharge : bountyCharge p.rewardQuota p.rewardSlots = .ok gross)
    (hrate : parseOpenSourceBountyFeeRateBasisPoints e.feeRate = some bps) :
    (∀ x ∈ chargeSteps p.rewardQuota p.rewardSlots bps, 0 ≤ x ∧ x ≤ maxInt) ∧
      (bps : ℚ) / 100 = decimalValue (trimSpace e.feeRate).toList ∧
      let fee := ⌈(p.rewardQuota * bps : ℚ) / 10000⌉
      match calculateOpenSourceBountyPublicationCharge e p with
      | .error _ => p.rewardQuota ≤ fee
      | .ok c => fee < p.rewardQuota ∧ c.platformFeeQuota = fee * p.rewardSlots ∧
        1 ≤ c.netRewardQuota ∧ c.escrowQuota = c.netRewardQuota * p.rewardSlots ∧
        c.escrowQuota + c.platformFeeQuota = p.rewardQuota * p.rewardSlots := by
  obtain ⟨hbps, hdec⟩ := parseOpenSourceBountyFeeRateBasisPoints_spec hrate
  simp only [bountyCharge, eq_ok] at hcharge
  obtain ⟨⟨hr, hs, hmax⟩, rfl⟩ := hcharge
  have hsteps := chargeSteps_bounds hr hs hmax hbps
  rw [← feePerSlot_eq]
  refine ⟨hsteps, hdec, ?_⟩
  cases hres : calculateOpenSourceBountyPublicationCharge e p with
  | ok =>
    simp only [calculateOpenSourceBountyPublicationCharge, bountyCharge, eq_ok,
      getOpenSourceBountyFeeRateBps, hrate, Option.getD_some] at hres
    obtain ⟨_, ⟨-, rfl⟩, ⟨-, hlt⟩, ⟨-, -, -, -, hsum⟩, rfl⟩ := hres
    exact ⟨hlt, rfl, Int.sub_pos_of_lt hlt, rfl, hsum⟩
  | error =>
    refine not_lt.1 fun hlt => ?_
    simp only [calculateOpenSourceBountyPublicationCharge, bountyCharge, bind_eq_error, eq_ok,
      require_eq_error, pure_ne_error, getOpenSourceBountyFeeRateBps, hrate, Option.getD_some,
      and_false, or_false] at hres
    simp only [chargeSteps, forall_mem_cons] at hsteps
    obtain ⟨-, -, -, -, hfee, -, ⟨hesc, hesc'⟩, ⟨hfees, hfees'⟩, -⟩ := hsteps
    obtain ⟨hn, -⟩ | ⟨_, ⟨-, rfl⟩, ⟨hn, -⟩ | ⟨-, hn, -⟩⟩ := hres
    · exact hn ⟨hr, hs, hmax⟩
    · exact hn ⟨hfee.1, hlt⟩
    · exact hn ⟨hesc, hfees, hesc', hfees', by rw [← add_mul, sub_add_cancel]⟩

theorem publication_charge_exact_max :
    bountyCharge maxInt 1 = .ok maxInt ∧ ∀ x ∈ chargeSteps maxInt 1 9999, 0 ≤ x ∧ x ≤ maxInt :=
  ⟨rfl, (publication_charge_exact (e := ⟨0, " 99.99"⟩) (p := ⟨1, "", "", "", "", maxInt, 0, 1, 0, 0,
    0, .draft, 0, 0, 0, 0, 0⟩) rfl (by decide +kernel)).1⟩

end LmmApi.Bounty
