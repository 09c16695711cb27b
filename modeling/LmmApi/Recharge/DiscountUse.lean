import LmmApi.Recharge.CreditOnce

/-!
# The uses of a discount code

`Discounts.Change` says everything that a reservation, a consumption or a release can do to the
tables. From it follow the three laws of the uses of a code, along every run:

* the counter of a code is the number of its consumed reservations (`Accounted`);
* a trade number raises a counter at most once, and a consumed reservation stays as it is;
* with a limit, the counter and the reservations that have not expired stay within it (`Within`), as
  long as every consumption finds its own reservation in time.

The last one depends on the clock, which is part of the state: a reservation stops counting when it
expires, so a late consumption may find its place taken.
-/

namespace LmmApi.Recharge

open Guarded Go Attribution List Option Table UniqueTable Discounts

variable {now : ℤ} {t : TopUp} {d d' : Discounts}

/-! ## What an operation can do -/

namespace Discounts

/-- The number of consumed reservations of a code. -/
def consumedCount (d : Discounts) (id : ℤ) : ℤ :=
  d.reservations.table.count fun _ r => r.discountCodeId = id ∧ r.status = .consumed

/-- The counter of a code, and zero without the code. -/
def counter (d : Discounts) (id : ℕ) : ℤ := (d.codes.get? id).elim 0 DiscountCode.usedCount

/-- The changes of the tables by an operation at `now`. -/
inductive Change (now : ℤ) (d : Discounts) : Discounts → Prop
  | kept : Change now d d
  /-- A new reservation of the code `c`, which has room for it. -/
  | reserved (r : Reservation) (c : DiscountCode) (d' : Discounts)
      (hcode : d.codes.get? r.discountCodeId.toNat = some c) (hpos : 0 < r.discountCodeId)
      (hroom : 0 < c.maxUses → c.usedCount + d.active now r.discountCodeId < c.maxUses)
      (hstatus : r.status = .reserved) (hname : trimSpace r.topUpTradeNo = r.topUpTradeNo)
      (hcodes : d'.codes = d.codes)
      (hreservations : d'.reservations.table = d.reservations.table.insert r) : Change now d d'
  /-- A reservation becomes consumed. -/
  | consumed (rid : ℕ) (r : Reservation) (c : DiscountCode) (d' : Discounts)
      (hcode : d.codes.get? r.discountCodeId.toNat = some c) (hpos : 0 < r.discountCodeId)
      (hget : d.reservations.table.get? rid = some r) (hstatus : r.status ≠ .consumed)
      (hcodes : d'.codes = d.useCode r.discountCodeId)
      (hreservations : d'.reservations.table =
        d.reservations.table.modify rid fun r => { r with status := .consumed }) : Change now d d'
  /-- A use without a reservation gets a consumed one. -/
  | added (r : Reservation) (c : DiscountCode) (d' : Discounts)
      (hcode : d.codes.get? r.discountCodeId.toNat = some c) (hpos : 0 < r.discountCodeId)
      (hstatus : r.status = .consumed) (hname : trimSpace r.topUpTradeNo = r.topUpTradeNo)
      (hcodes : d'.codes = d.useCode r.discountCodeId)
      (hreservations : d'.reservations.table = d.reservations.table.insert r) : Change now d d'
  | released (p : Reservation → Prop) [DecidablePred p] (d' : Discounts)
      (hstatus : ∀ r, p r → r.status = .reserved) (hcodes : d'.codes = d.codes)
      (hreservations : d'.reservations.table =
        d.reservations.table.modifyWhere (fun _ r => p r) fun r => { r with status := .released }) :
      Change now d d'

theorem get?_of_findReservation {tradeNo : String} {x : ℕ × Reservation}
    (h : d.findReservation tradeNo = some x) :
    d.reservations.table.get? x.1 = some x.2 ∧ x.2.topUpTradeNo = tradeNo :=
  first?_eq_some (t := d.reservations.table)
    (p := fun _ (r : Reservation) => r.topUpTradeNo = tradeNo) h

end Discounts

theorem reserveDiscountCodeUsage_change (h : reserveDiscountCodeUsage now t d = .ok d') :
    d.Change now d' ∧ d'.codes = d.codes := by
  unfold reserveDiscountCodeUsage at h
  split at h
  · rw [pure_eq_ok.1 h]
    exact ⟨.kept, rfl⟩
  · rename_i hid
    obtain ⟨c, hc, h⟩ := bind_eq_ok.1 h
    obtain ⟨hc, -⟩ := filter_eq_some_iff.1 (orFail_eq_ok.1 hc)
    obtain ⟨_, h⟩ := of_bind h
    split at h
    · obtain ⟨_, h⟩ := of_bind h
      rw [pure_eq_ok.1 h]
      exact ⟨.kept, rfl⟩
    · obtain ⟨_, hroom, h⟩ := bind_eq_ok.1 h
      obtain ⟨_, hins, h⟩ := bind_eq_ok.1 h
      have hnm := trimSpace_trimSpace t.tradeNo
      generalize trimSpace t.tradeNo = name at hins hnm
      obtain ⟨-, htab⟩ := insert?_eq_some (orFail_eq_ok.1 hins)
      obtain rfl := pure_eq_ok.1 h
      have hroom := require_eq_ok.1 hroom
      refine ⟨.reserved ⟨t.discountCodeId, name, t.userId, .reserved, now + discountCodeReservationTTL⟩
        c _ hc (not_le.1 hid) (fun hmax => ?_) rfl hnm rfl htab, rfl⟩
      exact not_le.1 fun hfull => hroom ⟨hmax, hfull⟩

/-- A consumption for an order: nothing, or one more use of the code of the order, by a reservation
of its trade number. -/
theorem consumeReservedDiscountCodeUsage_cases
    (h : consumeReservedDiscountCodeUsage now t d = .ok d') :
    d' = d ∨ 0 < t.discountCodeId ∧ ∃ c, d.codes.get? t.discountCodeId.toNat = some c ∧
      d'.codes = d.useCode t.discountCodeId ∧
      ((∃ rid r, d.findReservation t.tradeNo = some (rid, r) ∧ r.status ≠ .consumed ∧
          r.discountCodeId = t.discountCodeId ∧ d'.reservations.table =
            d.reservations.table.modify rid fun r => { r with status := .consumed }) ∨
        d.findReservation t.tradeNo = none ∧
          ∃ r : Reservation, r.topUpTradeNo = trimSpace t.tradeNo ∧ r.status = .consumed ∧
            r.discountCodeId = t.discountCodeId ∧
            ¬UniqueTable.Taken d.reservations.table Reservation.keys d.reservations.table.next r ∧
            d'.reservations.table = d.reservations.table.insert r) := by
  unfold consumeReservedDiscountCodeUsage at h
  split at h
  · exact .inl (pure_eq_ok.1 h).symm
  · rename_i hid
    split at h
    · rename_i rid r hf
      obtain ⟨_, hs, h⟩ := bind_eq_ok.1 h
      split at h
      · exact .inl (pure_eq_ok.1 h).symm
      · rename_i hop
        obtain ⟨hst, hc⟩ := not_or.1 hop
        obtain ⟨c, hc⟩ := ne_none_iff_exists'.1 hc
        obtain rfl := pure_eq_ok.1 h
        exact .inr ⟨not_le.1 hid, c, hc, rfl, .inl ⟨rid, r, hf, hst, (require_eq_ok.1 hs).1, rfl⟩⟩
    · rename_i hn
      split at h
      · exact .inl (pure_eq_ok.1 h).symm
      · rename_i hc
        obtain ⟨c, hc⟩ := ne_none_iff_exists'.1 hc
        generalize trimSpace t.tradeNo = name at h ⊢
        obtain ⟨_, hins, h⟩ := bind_eq_ok.1 h
        obtain ⟨hfr, htab⟩ := insert?_eq_some (orFail_eq_ok.1 hins)
        obtain rfl := pure_eq_ok.1 h
        exact .inr ⟨not_le.1 hid, c, hc, rfl, .inr ⟨hn, _, rfl, rfl, rfl, hfr, htab⟩⟩

theorem consumeReservedDiscountCodeUsage_change
    (h : consumeReservedDiscountCodeUsage now t d = .ok d') : d.Change now d' := by
  rcases consumeReservedDiscountCodeUsage_cases h with rfl | ⟨hpos, c, hc, hcod, hr⟩
  · exact .kept
  · rcases hr with ⟨rid, r, hf, hst, hs, htab⟩ | ⟨-, r, hnm, hst, hs, -, htab⟩
    · rw [← hs] at hpos hc hcod
      exact .consumed rid r c d' hc hpos (get?_of_findReservation hf).1 hst hcod htab
    · rw [← hs] at hpos hc hcod
      refine .added r c d' hc hpos hst ?_ hcod htab
      rw [hnm, trimSpace_trimSpace]

/-! ## The counter -/

namespace Discounts

/-- A reservation is of a code that exists, and stored under a trimmed trade number. -/
def Proper (codes : Table DiscountCode) (r : Reservation) : Prop :=
  0 < r.discountCodeId ∧ codes.get? r.discountCodeId.toNat ≠ none ∧
    trimSpace r.topUpTradeNo = r.topUpTradeNo

/-- The counter of a code is the number of its consumed reservations. -/
structure Accounted (d : Discounts) : Prop where
  used : ∀ id c, d.codes.get? id = some c → c.usedCount = d.consumedCount id
  proper : ∀ i r, d.reservations.table.get? i = some r → Proper d.codes r

variable {id : ℤ} {j : ℕ} {c : DiscountCode} {r : Reservation}

theorem get?_useCode : (d.useCode id).get? j = (d.codes.get? j).map fun c =>
      if j = id.toNat then { c with usedCount := c.usedCount + 1 } else c :=
  Table.get?_modify ..

theorem get?_useCode_ne_none (h : d.codes.get? j ≠ none) : (d.useCode id).get? j ≠ none := by
  rwa [get?_useCode, Ne, map_eq_none_iff]

theorem useCode_ne (h : d.codes.get? id.toNat = some c) : d.useCode id ≠ d.codes := by
  intro heq
  have hg := @get?_useCode d id id.toNat
  rw [heq, h, map_some, if_pos rfl] at hg
  have hcnt := congrArg DiscountCode.usedCount (some.inj hg)
  simp at hcnt

theorem counter_of_useCode (hpos : 0 < id)
    (hc : d.codes.get? id.toNat = some c) (hcod : d'.codes = d.useCode id) (j : ℕ) :
    d'.counter j = d.counter j + if id = j then 1 else 0 := by
  rw [counter, counter, hcod, get?_useCode]
  by_cases hj : j = id.toNat
  · rw [hj, hc]
    simp [hpos.le]
  · rw [if_neg (by omega), add_zero]
    simp [hj]

/-- The counters after one more use of a code, whose consumed reservations are one more. -/
theorem Accounted.of_use (h : d.Accounted) (hpos : 0 < id) (hcod : d'.codes = d.useCode id)
    (hcon : ∀ j, d'.consumedCount j = d.consumedCount j + if id = j then 1 else 0)
    (hpro : ∀ i r, d'.reservations.table.get? i = some r → Proper d.codes r) : d'.Accounted := by
  have hid : (id.toNat : ℤ) = id := Int.toNat_of_nonneg hpos.le
  refine ⟨fun j c' hc' => ?_, fun i r hr => ?_⟩
  · rw [hcod, get?_useCode, map_eq_some_iff] at hc'
    obtain ⟨c₀, hc₀, rfl⟩ := hc'
    have hud := h.used j c₀ hc₀
    rw [hcon]
    by_cases hj : j = id.toNat
    · rw [if_pos hj, if_pos (by omega)]
      simp only [hud]
    · rw [if_neg hj, if_neg (by omega), hud, add_zero]
  · obtain ⟨hpos, hkn, hnm⟩ := hpro i r hr
    rw [hcod]
    exact ⟨hpos, get?_useCode_ne_none hkn, hnm⟩

/-- The tables after a change that concerns no consumed reservation. -/
theorem Accounted.of_consumedCount_eq (h : d.Accounted) (hcod : d'.codes = d.codes)
    (hcon : ∀ j, d'.consumedCount j = d.consumedCount j)
    (hpro : ∀ i r, d'.reservations.table.get? i = some r → Proper d.codes r) : d'.Accounted := by
  refine ⟨fun j c hc => ?_, hcod ▸ hpro⟩
  rw [hcon]
  exact h.used j c (hcod ▸ hc)

theorem Accounted.proper_insert (h : d.Accounted) (hr : Proper d.codes r)
    (htab : d'.reservations.table = d.reservations.table.insert r) :
    ∀ i r, d'.reservations.table.get? i = some r → Proper d.codes r := by
  intro i r' hr'
  rw [htab] at hr'
  rcases get?_insert_cases hr' with ⟨-, rfl⟩ | hr'
  · exact hr
  · exact h.proper i r' hr'

theorem Accounted.proper_modifyWhere (h : d.Accounted) {p : ℕ → Reservation → Prop}
    [∀ i r, Decidable (p i r)] {status : ReservationStatus} (htab : d'.reservations.table =
      d.reservations.table.modifyWhere p fun r => { r with status }) :
    ∀ i r, d'.reservations.table.get? i = some r → Proper d.codes r := by
  intro i r' hr'
  rw [htab, get?_modifyWhere, map_eq_some_iff] at hr'
  obtain ⟨r, hr, rfl⟩ := hr'
  have hpro := h.proper i r hr
  split <;> exact hpro

/-- **Every operation keeps the account.** -/
theorem Change.accounted (hchg : d.Change now d') (h : d.Accounted) : d'.Accounted := by
  cases hchg with
  | kept => exact h
  | reserved r _ _ hc hpos _ hst hnm hcod htab =>
    have hpro : Proper d.codes r := ⟨hpos, by simp [hc], hnm⟩
    refine h.of_consumedCount_eq hcod (fun j => ?_) (h.proper_insert hpro htab)
    rw [consumedCount, htab, Table.count_insert, hst]
    simp [consumedCount]
  | consumed _ _ _ _ _ hpos hg hst hcod htab =>
    refine h.of_use hpos hcod (fun j => ?_) (h.proper_modifyWhere htab)
    rw [consumedCount, htab, count_modify hg]
    simp [consumedCount, hst]
  | added r _ _ hc hpos hst hnm hcod htab =>
    have hpro : Proper d.codes r := ⟨hpos, by simp [hc], hnm⟩
    refine h.of_use hpos hcod (fun j => ?_) (h.proper_insert hpro htab)
    rw [consumedCount, htab, Table.count_insert, hst]
    simp [consumedCount]
  | released p _ hst hcod htab =>
    refine h.of_consumedCount_eq hcod (fun j => ?_) (h.proper_modifyWhere htab)
    rw [consumedCount, consumedCount, Table.count, htab, sum_modifyWhere]
    refine sum_congr fun i r _ => ?_
    by_cases hp : p r
    · simp [hp, hst r hp]
    · simp [hp]

/-- A consumed reservation stays as it is. -/
theorem Change.get?_of_consumed (hchg : d.Change now d') {i : ℕ}
    (h : d.reservations.table.get? i = some r) (hr : r.status = .consumed) :
    d'.reservations.table.get? i = some r := by
  cases hchg with
  | kept => exact h
  | reserved _ _ _ _ _ _ _ _ _ htab | added _ _ _ _ _ _ _ _ htab =>
    rw [htab]
    exact get?_insert_of_get? h
  | consumed rid _ _ _ _ _ hg hst _ htab =>
    have hne : i ≠ rid := by
      rintro rfl
      rw [h] at hg
      exact hst (some.inj hg ▸ hr)
    rw [htab, get?_modify_of_ne _ _ hne, h]
  | released p _ hst _ htab =>
    have hp : ¬p r := by
      intro hp
      have hres := hst r hp
      rw [hr] at hres
      cases hres
    rw [htab, get?_modifyWhere, h]
    simp [hp]

/-! ## The limit -/

/-- The uses of a code and its reservations that have not expired are within its limit. -/
def Within (d : Discounts) (now : ℤ) (id : ℕ) : Prop :=
  ∀ c, d.codes.get? id = some c → 0 < c.maxUses → c.usedCount + d.active now id ≤ c.maxUses

/-- Time only frees places. -/
theorem Within.mono {now' : ℤ} {id : ℕ} (h : d.Within now id) (hle : now ≤ now') :
    d.Within now' id := by
  intro c hc hmax
  have hact : d.active now' id ≤ d.active now id := by
    refine count_le_count fun i r _ hr => ?_
    exact ⟨hr.1, hr.2.1, hle.trans_lt hr.2.2⟩
  have := h c hc hmax
  omega

/-- An operation that uses no code keeps the limits. -/
theorem Change.within (hchg : d.Change now d') {id : ℕ} (h : d.Within now id)
    (hkt : d'.codes = d.codes) : d'.Within now id := by
  cases hchg with
  | kept => exact h
  | reserved r c _ hco hpos hroom hst hnm hcod htab =>
    intro c' hc' hmax
    rw [hcod] at hc'
    have hle := h c' hc' hmax
    have hact : d'.active now id =
        d.active now id + if r.discountCodeId = id ∧ r.status = .reserved ∧ now < r.expiresTime
          then 1 else 0 := by
      rw [active, htab, Table.count_insert]
      rfl
    by_cases hid : r.discountCodeId = id
    · rw [hid, Int.toNat_natCast, hc'] at hco
      cases hco
      have := hroom hmax
      rw [hid] at this
      split at hact <;> omega
    · rw [if_neg (by simp [hid])] at hact
      omega
  | consumed _ _ _ _ hco _ _ _ hcod | added _ _ _ hco _ _ _ hcod =>
    exact absurd (hcod.symm.trans hkt) (useCode_ne hco)
  | released p _ hst hcod htab =>
    intro c hc hmax
    have hle := h c (hcod ▸ hc) hmax
    have hact : d'.active now id ≤ d.active now id := by
      rw [active, active, Table.count, htab, sum_modifyWhere]
      refine Table.sum_le_sum fun i r _ => ?_
      by_cases hp : p r
      · simp only [hp, if_true, reduceCtorEq, false_and, and_false, if_false]
        split <;> omega
      · simp only [hp, if_false, le_refl]
    omega

/-- One more use of a code, for which a place became free. -/
theorem Within.of_use {code : ℤ} {id : ℕ} (h : d.Within now id) (hpos : 0 < code)
    (hcod : d'.codes = d.useCode code)
    (hact : d'.active now id + (if code = id then 1 else 0) ≤ d.active now id) :
    d'.Within now id := by
  intro c' hc' hmax
  rw [hcod, get?_useCode, map_eq_some_iff] at hc'
  obtain ⟨c, hc, rfl⟩ := hc'
  by_cases heq : code = id
  · rw [if_pos heq] at hact
    rw [if_pos (by omega)] at hmax ⊢
    have := h c hc hmax
    simp only
    omega
  · rw [if_neg heq] at hact
    rw [if_neg (by omega)] at hmax ⊢
    have := h c hc hmax
    omega

end Discounts

/-- A consumption keeps the limit of a code, if it finds its own reservation in time. -/
theorem consumeReservedDiscountCodeUsage_within
    (h : consumeReservedDiscountCodeUsage now t d = .ok d') {id : ℕ} (hwit : d.Within now id)
    (htim : d'.codes ≠ d.codes → t.discountCodeId = id →
      ∃ x ∈ d.findReservation t.tradeNo, x.2.status = .reserved ∧ now < x.2.expiresTime) :
    d'.Within now id := by
  rcases consumeReservedDiscountCodeUsage_cases h with rfl | ⟨hpos, c, hc, hcod, hr⟩
  · exact hwit
  · replace htim := htim (hcod ▸ useCode_ne hc)
    refine hwit.of_use hpos hcod ?_
    rcases hr with ⟨_, r, hf, -, hs, htab⟩ | ⟨hn, r, -, -, hs, -, htab⟩
    · rw [active, htab, count_modify (get?_of_findReservation hf).1]
      by_cases hid : t.discountCodeId = id
      · obtain ⟨x, hx, hres, hexp⟩ := htim hid
        obtain rfl := mem_unique hf hx
        rw [if_pos ⟨hs.trans hid, hres, hexp⟩, if_pos hid]
        simp [active]
      · simp [active, hs, hid]
    · have hid : t.discountCodeId ≠ id := by
        intro hid
        obtain ⟨x, hx, -⟩ := htim hid
        rw [hn] at hx
        cases hx
      rw [active, htab, Table.count_insert]
      simp [active, hs, hid]

/-! ## Runs -/

/-- An operation on the tables at a time. -/
inductive DiscountStep
  | reserve (now : ℤ) (t : TopUp)
  | consume (now : ℤ) (t : TopUp)
  | release (now : ℤ) (tradeNo : String)
  /-- Codes are added and edited. -/
  | edit (now : ℤ) (codes : Table DiscountCode)

/-- The tables with the time of the last operation. -/
structure DiscountState where
  clock : ℤ
  discounts : Discounts

namespace DiscountStep

/-- The time of an operation. -/
def time : DiscountStep → ℤ
  | reserve now _ | consume now _ | release now _ | edit now _ => now

/-- The tables after an operation. One that fails is rolled back. -/
def apply : DiscountStep → Discounts → Discounts
  | reserve now t, d => (reserveDiscountCodeUsage now t d).toOption.getD d
  | consume now t, d => (consumeReservedDiscountCodeUsage now t d).toOption.getD d
  | release _ tradeNo, d => d.release tradeNo
  | edit _ codes, d => { d with codes }

def exec (i : DiscountStep) (s : DiscountState) : DiscountState := ⟨i.time, i.apply s.discounts⟩

/-- An edit keeps the codes with their counters and does not lower a limit; a new code has not been
used. -/
def KeepsUses (codes codes' : Table DiscountCode) : Prop :=
  (∀ id c, codes.get? id = some c → ∃ c', codes'.get? id = some c' ∧
    c'.usedCount = c.usedCount ∧ (0 < c'.maxUses → 0 < c.maxUses ∧ c.maxUses ≤ c'.maxUses)) ∧
  ∀ id c', codes.get? id = none → codes'.get? id = some c' → c'.usedCount = 0

/-- The clock does not run backwards, and no code is deleted. -/
def Admissible (i : DiscountStep) (s : DiscountState) : Prop :=
  s.clock ≤ i.time ∧ match i with
    | edit _ codes => KeepsUses s.discounts.codes codes
    | _ => True

/-- The trade number, trimmed, and the code of an operation that raises a counter. -/
def uses : DiscountStep → DiscountState → List (String × ℤ)
  | consume now t, s =>
    if ((consume now t).apply s.discounts).counter t.discountCodeId.toNat =
      s.discounts.counter t.discountCodeId.toNat then []
    else [(trimSpace t.tradeNo, t.discountCodeId)]
  | _, _ => []

/-- If the operation uses the code, then its own reservation is reserved and has not expired. -/
def Timely (id : ℤ) : DiscountStep → DiscountState → Prop
  | consume now t, s => (consume now t).uses s ≠ [] → t.discountCodeId = id →
    ∃ x ∈ s.discounts.findReservation t.tradeNo, x.2.status = .reserved ∧ now < x.2.expiresTime
  | _, _ => True

instance (id : ℤ) : ∀ i s, Decidable (Timely id i s)
  | consume .., _ => inferInstanceAs (Decidable (_ → _ → _))
  | reserve .., _ | release .., _ | edit .., _ => isTrue trivial

variable {i : DiscountStep} {s : DiscountState}

theorem reserve_apply (now : ℤ) (t : TopUp) (d : Discounts) : (reserve now t).apply d = d ∨
      reserveDiscountCodeUsage now t d = .ok ((reserve now t).apply d) :=
  getD_cases _ d

theorem consume_apply (now : ℤ) (t : TopUp) (d : Discounts) : (consume now t).apply d = d ∨
      consumeReservedDiscountCodeUsage now t d = .ok ((consume now t).apply d) :=
  getD_cases _ d

/-- Every operation but an edit is one of the changes. -/
theorem change_or_edit (i : DiscountStep) (s : DiscountState) :
    s.discounts.Change i.time (exec i s).discounts ∨ ∃ now codes, i = edit now codes := by
  cases i with
  | reserve now t =>
    refine .inl ?_
    simp only [exec, time]
    rcases reserve_apply now t s.discounts with hfl | hok
    · rw [hfl]
      exact .kept
    · exact (reserveDiscountCodeUsage_change hok).1
  | consume now t =>
    refine .inl ?_
    simp only [exec, time]
    rcases consume_apply now t s.discounts with hfl | hok
    · rw [hfl]
      exact .kept
    · exact consumeReservedDiscountCodeUsage_change hok
  | release _ tradeNo =>
    refine .inl ?_
    simp only [exec, time, apply, Discounts.release]
    generalize trimSpace tradeNo = name
    split
    · exact .kept
    · exact .released (fun r => r.topUpTradeNo = name ∧ r.status = .reserved) _ (fun _ h => h.2) rfl rfl
  | edit now codes => exact .inr ⟨now, codes, rfl⟩

/-- What a consumption uses: nothing, or one use of the code of its order, by a reservation of its
trade number that was not consumed. -/
theorem consume_uses (now : ℤ) (t : TopUp) (h : s.discounts.Accounted) :
    (consume now t).apply s.discounts = s.discounts ∧ (consume now t).uses s = [] ∨
      (consume now t).uses s = [(trimSpace t.tradeNo, t.discountCodeId)] ∧
      (∀ j : ℕ, ((consume now t).apply s.discounts).counter j =
        s.discounts.counter j + if t.discountCodeId = j then 1 else 0) ∧
      (∀ j r, s.discounts.reservations.table.get? j = some r →
        r.topUpTradeNo = trimSpace t.tradeNo → r.status ≠ .consumed) ∧
      ∃ j r, ((consume now t).apply s.discounts).reservations.table.get? j = some r ∧
        r.topUpTradeNo = trimSpace t.tradeNo ∧ r.status = .consumed := by
  have hn (heq : (consume now t).apply s.discounts = s.discounts) :
      (consume now t).uses s = [] := by
    rw [uses, heq, if_pos rfl]
  rcases consume_apply now t s.discounts with heq | hok
  · exact .inl ⟨heq, hn heq⟩
  rcases consumeReservedDiscountCodeUsage_cases hok with heq | ⟨hpos, c, hc, hcod, hrow⟩
  · exact .inl ⟨heq, hn heq⟩
  have hcou := counter_of_useCode hpos hc hcod
  refine .inr ⟨?_, hcou, ?_⟩
  · rw [uses, hcou, if_neg]
    rw [if_pos (Int.toNat_of_nonneg hpos.le).symm]
    omega
  rcases hrow with ⟨rid, r, hf, hst, -, htab⟩ | ⟨-, r, hnm, hst, -, hfr, htab⟩
  · obtain ⟨hg, hnm⟩ := get?_of_findReservation hf
    -- the reservation was found under the trade number as it is, which is the trimmed one
    obtain ⟨-, -, htrim⟩ := h.proper rid r hg
    rw [hnm] at htrim
    constructor
    · intro j r' hr' hnm'
      have hj : j = rid := s.discounts.reservations.unique j rid r' r t.tradeNo hr' hg
        (by simp [Reservation.keys, hnm', htrim]) (by simpa [Reservation.keys] using hnm.symm)
      subst hj
      obtain rfl := mem_unique hr' hg
      exact hst
    · refine ⟨rid, { r with status := .consumed }, ?_, by rw [htrim]; exact hnm, rfl⟩
      rw [htab, get?_modify_self, hg]
      rfl
  · constructor
    · intro j r' hr' hnm' _
      refine hfr (any_iff.2 ⟨j, r', hr', ?_, trimSpace t.tradeNo, ?_, ?_⟩)
      · exact (lt_next_of_get? hr').ne
      · simp [Reservation.keys, hnm]
      · simp [Reservation.keys, hnm']
    · exact ⟨_, r, by rw [htab]; exact get?_insert_self _ _, hnm, hst⟩

/-! ### Steps -/

theorem accounted_step (hi : i.Admissible s) (h : s.discounts.Accounted) :
    (exec i s).discounts.Accounted := by
  rcases change_or_edit i s with hchg | ⟨_, codes, rfl⟩
  · exact hchg.accounted h
  obtain ⟨-, hkt, hnew⟩ := hi
  refine ⟨fun id c' hc' => ?_, fun j r hr => ?_⟩
  · show c'.usedCount = s.discounts.consumedCount id
    cases hold : s.discounts.codes.get? id with
    | none =>
      rw [hnew id c' hold hc', eq_comm, consumedCount, count_eq_zero_iff]
      rintro j r hr ⟨hid, -⟩
      obtain ⟨-, hkn, -⟩ := h.proper j r hr
      rw [hid, Int.toNat_natCast] at hkn
      exact hkn hold
    | some c =>
      obtain ⟨_, hc'', hud, -⟩ := hkt id c hold
      obtain rfl := mem_unique hc' hc''
      rw [hud]
      exact h.used id c hold
  · obtain ⟨hpos, hkn, hnm⟩ := h.proper j r hr
    obtain ⟨c, hc⟩ := ne_none_iff_exists'.1 hkn
    obtain ⟨c', hc', -⟩ := hkt _ c hc
    refine ⟨hpos, ?_, hnm⟩
    show codes.get? _ ≠ none
    rw [hc']
    exact nofun

/-- A consumed reservation is not touched again. -/
theorem get?_step_of_consumed {j : ℕ} {r : Reservation}
    (h : s.discounts.reservations.table.get? j = some r) (hr : r.status = .consumed) :
    (exec i s).discounts.reservations.table.get? j = some r := by
  rcases change_or_edit i s with hchg | ⟨_, _, rfl⟩
  · exact hchg.get?_of_consumed h hr
  · exact h

theorem reserve_codes (now : ℤ) (t : TopUp) :
    (exec (reserve now t) s).discounts.codes = s.discounts.codes := by
  rcases reserve_apply now t s.discounts with heq | hok
  · exact congrArg codes heq
  · exact (reserveDiscountCodeUsage_change hok).2

theorem release_codes (now : ℤ) (tradeNo : String) :
    (exec (release now tradeNo) s).discounts.codes = s.discounts.codes := by
  show (s.discounts.release tradeNo).codes = _
  unfold Discounts.release
  simp only []
  split <;> rfl

theorem within_step {id : ℕ} (hi : i.Admissible s) (htim : i.Timely id s)
    (hacc : s.discounts.Accounted) (h : s.discounts.Within s.clock id) :
    (exec i s).discounts.Within (exec i s).clock id := by
  have hnow : s.discounts.Within i.time id := h.mono hi.1
  have hchg := change_or_edit i s
  cases i with
  | reserve now t =>
    exact (hchg.resolve_right fun ⟨_, _, h⟩ => nomatch h).within hnow (reserve_codes now t)
  | release now tradeNo =>
    exact (hchg.resolve_right fun ⟨_, _, h⟩ => nomatch h).within hnow (release_codes now tradeNo)
  | consume now t =>
    show ((consume now t).apply s.discounts).Within now id
    rcases consume_apply now t s.discounts with heq | hok
    · rw [heq]
      exact hnow
    · refine consumeReservedDiscountCodeUsage_within hok hnow fun hud hid => htim ?_ hid
      rcases consume_uses (s := s) now t hacc with ⟨hkt, -⟩ | ⟨hus, -⟩
      · exact absurd (congrArg Discounts.codes hkt) hud
      · rw [hus]
        exact nofun
  | edit now codes =>
    obtain ⟨-, hkt, hnew⟩ := hi
    intro c' hc' hmax
    show c'.usedCount + s.discounts.active now id ≤ c'.maxUses
    cases hold : s.discounts.codes.get? id with
    | none =>
      have hact : s.discounts.active now id = 0 := by
        refine count_eq_zero_iff.2 fun j r hr hcnt => ?_
        obtain ⟨-, hkn, -⟩ := hacc.proper j r hr
        rw [hcnt.1, Int.toNat_natCast] at hkn
        exact hkn hold
      rw [hnew id c' hold hc', hact]
      omega
    | some c =>
      obtain ⟨_, hc'', hud, hlim⟩ := hkt id c hold
      obtain rfl := mem_unique hc' hc''
      obtain ⟨hpos, hle⟩ := hlim hmax
      have := hnow c hold hpos
      have htm : (edit now codes).time = now := rfl
      rw [htm] at this
      omega

/-- The counters follow the uses. -/
theorem counter_step (hi : i.Admissible s) (h : s.discounts.Accounted) (id : ℕ) :
    (exec i s).discounts.counter id =
      s.discounts.counter id + ((i.uses s).map Prod.snd).count (id : ℤ) := by
  cases i with
  | reserve => simp [uses, counter, reserve_codes]
  | release => simp [uses, counter, release_codes]
  | consume now t =>
    rcases consume_uses (s := s) now t h with ⟨hkt, hus⟩ | ⟨hus, hcou, -⟩
    · rw [hus, exec, hkt]
      simp
    · rw [hus, exec, hcou]
      simp [count_singleton]
  | edit _ codes =>
    obtain ⟨-, hkt, hnew⟩ := hi
    show (codes.get? id).elim 0 DiscountCode.usedCount =
      (s.discounts.codes.get? id).elim 0 DiscountCode.usedCount + _
    cases hold : s.discounts.codes.get? id with
    | none =>
      cases hco : codes.get? id with
      | none => simp [uses]
      | some c' => simp [uses, hnew id c' hold hco]
    | some c =>
      obtain ⟨c', hc', hud, -⟩ := hkt id c hold
      simp [uses, hc', hud]

/-- The counters have risen by the uses so far, each of which has a consumed reservation of its own.
-/
structure Settled (start : DiscountState) (seen : List (String × ℤ)) (s : DiscountState) :
    Prop where
  accounted : s.discounts.Accounted
  counter : ∀ id : ℕ, s.discounts.counter id =
    start.discounts.counter id + (seen.map Prod.snd).count (id : ℤ)
  nodup : (seen.map Prod.fst).Nodup
  consumed : ∀ use ∈ seen, ∃ j r, s.discounts.reservations.table.get? j = some r ∧
    r.topUpTradeNo = use.1 ∧ r.status = .consumed

theorem Settled.step {start : DiscountState} (seen : List (String × ℤ)) (s : DiscountState)
    (i : DiscountStep) (hi : i.Admissible s) (h : Settled start seen s) :
    Settled start (seen ++ i.uses s) (exec i s) := by
  have hkt : ∀ use ∈ seen, ∃ j r, (exec i s).discounts.reservations.table.get? j = some r ∧
      r.topUpTradeNo = use.1 ∧ r.status = .consumed := by
    intro use huse
    obtain ⟨j, r, hg, hnm, hr⟩ := h.consumed use huse
    exact ⟨j, r, get?_step_of_consumed hg hr, hnm, hr⟩
  have hacc := accounted_step hi h.accounted
  have hcou (id : ℕ) : (exec i s).discounts.counter id =
      start.discounts.counter id + ((seen ++ i.uses s).map Prod.snd).count (id : ℤ) := by
    rw [counter_step hi h.accounted, h.counter, map_append, count_append]
    push_cast
    ring
  have hn (hus : i.uses s = []) : Settled start (seen ++ i.uses s) (exec i s) := by
    refine ⟨hacc, hcou, ?_, ?_⟩
    · rw [hus, append_nil]
      exact h.nodup
    · rw [hus, append_nil]
      exact hkt
  cases i with
  | reserve | release | edit => exact hn rfl
  | consume now t =>
    rcases consume_uses (s := s) now t h.accounted with ⟨-, hus⟩ | ⟨hus, -, hfr, hrow⟩
    · exact hn hus
    · rw [hus] at hcou ⊢
      refine ⟨hacc, hcou, ?_, ?_⟩
      · rw [map_append, nodup_append]
        refine ⟨h.nodup, by simp, ?_⟩
        rintro name hnm name' hnm' rfl
        obtain ⟨use, huse, rfl⟩ := List.mem_map.1 hnm
        obtain ⟨j, r, hg, hrna, hr⟩ := h.consumed use huse
        simp only [map_cons, map_nil, mem_singleton] at hnm'
        exact hfr j r hg (hrna.trans hnm') hr
      · exact forall_mem_append.2 ⟨hkt, forall_mem_singleton.2 hrow⟩

end DiscountStep

open DiscountStep

/-- **The uses of discount codes.** Along every run of reservations, consumptions, releases and edits
with a clock that does not run backwards:
* the counter of a code is the number of its consumed reservations, and has risen by one for every
  operation that used the code;
* no trade number is used twice, and no two consumed reservations have the same one;
* a consumed reservation stays as it is;
* a code that starts within its limit stays there, if every consumption of it finds its own
  reservation reserved and not expired. -/
theorem discount_uses_accounted {s : DiscountState} {steps : List DiscountStep}
    (h : s.discounts.Accounted) (hsteps : Along DiscountStep.exec DiscountStep.Admissible s steps) :
    (∀ id c, (run DiscountStep.exec s steps).discounts.codes.get? id = some c →
      c.usedCount = (run DiscountStep.exec s steps).discounts.consumedCount id) ∧
    (∀ id : ℕ, (run DiscountStep.exec s steps).discounts.counter id = s.discounts.counter id +
      ((observed DiscountStep.exec DiscountStep.uses s steps).map Prod.snd).count (id : ℤ)) ∧
    ((observed DiscountStep.exec DiscountStep.uses s steps).map Prod.fst).Nodup ∧
    (∀ tradeNo, (run DiscountStep.exec s steps).discounts.reservations.table.count
      (fun _ r => r.topUpTradeNo = tradeNo ∧ r.status = .consumed) ≤ 1) ∧
    (∀ before after, steps = before ++ after → ∀ j r,
      (run DiscountStep.exec s before).discounts.reservations.table.get? j = some r →
      r.status = .consumed →
      (run DiscountStep.exec s steps).discounts.reservations.table.get? j = some r) ∧
    (∀ id : ℕ, s.discounts.Within s.clock id →
      Along DiscountStep.exec (DiscountStep.Timely id) s steps →
      (run DiscountStep.exec s steps).discounts.Within (run DiscountStep.exec s steps).clock id) := by
  have hstart : DiscountStep.Settled s [] s := ⟨h, by simp, nodup_nil, by simp⟩
  have hsettled := observed_rule DiscountStep.Settled.step hstart hsteps
  rw [nil_append] at hsettled
  refine ⟨hsettled.accounted.used, fun id => ?_, ?_, fun tradeNo => ?_, ?_, fun id hwithin htimely => ?_⟩
  · exact hsettled.counter id
  · exact hsettled.nodup
  · exact count_key_le_one _ tradeNo fun _ r hr => by simp [Reservation.keys, hr.1]
  · rintro before after rfl j r hget hr
    have hrun : run exec s (before ++ after) = run exec (run exec s before) after := foldl_append
    rw [hrun]
    exact run_rule_any (P := fun s' : DiscountState => s'.discounts.reservations.table.get? j = some r)
      (fun _ _ hget => get?_step_of_consumed hget hr) hget after
  · refine (run_rule
      (P := fun s' : DiscountState => s'.discounts.Accounted ∧ s'.discounts.Within s'.clock id)
      (fun _ _ hi hs => ?_) ⟨h, hwithin⟩ (hsteps.and htimely)).2
    exact ⟨accounted_step hi.1 hs.1, within_step hi.1 hi.2 hs.1 hs.2⟩

/-! ### The last use of a code -/

/-- A code for one use. -/
def oneUse : DiscountState where
  clock := 0
  discounts := ⟨Table.empty.insert { maxUses := 1 }, UniqueTable.empty⟩

def discountOrder (tradeNo : String) : TopUp where
  userId := 1
  amount := 10
  tradeNo
  discountCodeId := 1

/-- Two orders want the use. The first gets it and is settled twice, the second time with spaces
around its trade number, and closed; the second stays without. -/
def oneUseSteps : List DiscountStep :=
  [.reserve 10 (discountOrder "T1"), .reserve 20 (discountOrder "T2"),
    .consume 30 (discountOrder "T1"), .consume 40 (discountOrder "T1"),
    .consume 50 (discountOrder " T1 "), .release 60 "T1", .reserve 70 (discountOrder "T2")]

theorem oneUse_accounted : oneUse.discounts.Accounted := by
  refine ⟨fun id c hc => ?_, nofun⟩
  rcases get?_insert_cases hc with ⟨-, rfl⟩ | hc
  · rfl
  · cases hc

theorem discount_uses_accounted_oneUse :
    observed DiscountStep.exec DiscountStep.uses oneUse oneUseSteps = [("T1", 1)] ∧
      (run DiscountStep.exec oneUse oneUseSteps).discounts.counter 1 = 1 ∧
      (run DiscountStep.exec oneUse oneUseSteps).discounts.Within 70 1 := by
  have hsteps : Along exec DiscountStep.Admissible oneUse oneUseSteps := by
    refine ⟨⟨?_, trivial⟩, ⟨?_, trivial⟩, ⟨?_, trivial⟩, ⟨?_, trivial⟩, ⟨?_, trivial⟩,
      ⟨?_, trivial⟩, ⟨?_, trivial⟩, trivial⟩ <;> decide
  have hwithin : oneUse.discounts.Within 0 1 := by
    rintro c hc -
    cases hc
    decide
  obtain ⟨-, hcounter, -, -, -, hlimit⟩ := discount_uses_accounted oneUse_accounted hsteps
  exact ⟨by decide +kernel, (hcounter 1).trans (by decide +kernel),
    hlimit 1 hwithin (by decide +kernel)⟩

end LmmApi.Recharge
