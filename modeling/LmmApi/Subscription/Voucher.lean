import LmmApi.Lib.Attribution
import LmmApi.Subscription.Data

/-!
# Reset vouchers

A voucher resets the used amounts of the subscriptions of its user for its plan, once and before it
expires. A redemption is one transaction under the lock of the voucher, and a later one answers with
the event that the first has written.

The clock is read before the transaction, which may wait for the lock: `now` is the time that was
read, and `clock` the time when the locks are held. The batch reset reads the clock again at that
point, a redemption does not.
-/

namespace LmmApi.Subscription.Voucher

open Attribution Guarded Function Option Table

/-- `SubscriptionResetVoucher`, which is available until it has a time of redemption: no code
writes the third status, revoked. -/
structure ResetVoucher where
  userId : ℕ
  planId : ℕ
  expiresAt : ℤ
  redeemedAt : Option ℤ := none

/-- `SubscriptionResetResult`, which the event of the redemption repeats. -/
structure ResetResult where
  planId : ℕ
  resetCount : ℕ
  restoredQuota : ℤ

structure Db where
  vouchers : Table ResetVoucher
  subscriptions : Table UserSubscription
  /-- The event of a voucher, which is unique for its operation. -/
  events : ℕ → Option ResetResult

/-- A subscription that is reset. -/
def Resets (userId planId : ℕ) (now : ℤ) (s : UserSubscription) : Prop :=
  s.userId = userId ∧ s.planId = planId ∧ s.status = .active ∧ now < s.endTime
  deriving Decidable

/-- `resetUserSubscriptionTx`, which keeps the reset times here. -/
def reset (s : UserSubscription) : UserSubscription :=
  { s with amountUsed := 0, quotaVersion := s.quotaVersion + 1 }

/-- The sum in `adminResetUserSubscriptionsByPlanTx`. -/
def restoredQuota (used : List ℤ) : Except Failure ℤ :=
  used.foldlM (fun total used => do
    require (.other "subscription reset encountered a negative used quota") (0 ≤ used)
    require (.other "subscription reset quota total exceeds the supported range")
      (total + used ≤ maxInt64)
    return total + used) 0

/-- The voucher is claimed, the subscriptions are reset and the event is written. -/
def Db.claim (db : Db) (id : ℕ) (v : ResetVoucher) (now : ℤ) (result : ResetResult) : Db where
  vouchers := db.vouchers.modify id fun v => { v with redeemedAt := some now }
  subscriptions := db.subscriptions.modifyWhere (fun _ s => Resets v.userId v.planId now s) reset
  events := Function.update db.events id (some result)

/-- `RedeemUserSubscriptionResetVoucherWithAudit`. The active subscriptions are counted without a
lock, so that the answer `active` is arbitrary; `audited` tells whether the audit is written. Both
lookups of the plan find it: `AdminDeleteSubscriptionPlan` archives a plan that has a voucher. -/
def redeem (userId id : ℕ) (now : ℤ) (active audited : Bool) (db : Db) :
    Except Failure (ResetResult × Db) := do
  require (.other "invalid reset voucher") (0 < userId ∧ 0 < id)
  let v ← orFail (db.vouchers.get? id) .recordNotFound
  require .recordNotFound (v.userId = userId)
  if v.redeemedAt ≠ none then do
    let e ← orFail (db.events id) (.other "subscription reset voucher is unavailable")
    return (⟨v.planId, e.resetCount, e.restoredQuota⟩, db)
  else do
    require (.other "subscription reset voucher has expired") (now < v.expiresAt)
    require (.other "subscription reset requires an active subscription") active
    let subs := db.subscriptions.rows.filter fun r => Resets v.userId v.planId now r.2
    require (.other "该用户没有有效的此套餐订阅") (subs ≠ [])
    let quota ← restoredQuota (subs.map fun r => r.2.amountUsed)
    require (.other "duplicate event") (db.events id).isNone
    require (.other "audit") audited
    let result : ResetResult := ⟨v.planId, subs.length, quota⟩
    return (result, db.claim id v now result)

inductive Step
  /-- A batch reset issues a voucher. -/
  | issue (userId planId : ℕ) (expiresAt : ℤ)
  | redeem (userId id : ℕ) (now clock : ℤ) (active audited : Bool)
  /-- Other transactions on subscriptions. -/
  | others (subscriptions : Table UserSubscription)

/-- A redemption that fails is rolled back. -/
def exec : Step → Db → Db
  | .issue userId planId expiresAt, db =>
    { db with vouchers := db.vouchers.insert { userId, planId, expiresAt } }
  | .redeem userId id now _ active audited, db =>
    ((redeem userId id now active audited db).toOption.map Prod.snd).getD db
  | .others subscriptions, db => { db with subscriptions }

def Db.empty : Db := ⟨.empty, .empty, fun _ => none⟩

/-- The step redeems the voucher. -/
def Redeems (id : ℕ) (s : Step) (db : Db) : Prop :=
  (∃ v ∈ db.vouchers.get? id, v.redeemedAt = none) ∧
    ∃ v ∈ (exec s db).vouchers.get? id, v.redeemedAt ≠ none

/-- Neither the voucher nor one of its subscriptions ends while the call waits for the locks. -/
def InTime : Step → Db → Prop
  | .redeem userId id now clock _ _, db => ∀ v, db.vouchers.get? id = some v →
    (now < v.expiresAt → clock < v.expiresAt) ∧ ∀ j x, db.subscriptions.get? j = some x →
      Resets userId v.planId now x → clock < x.endTime
  | _, _ => True

/-- What a step can do. -/
inductive Does (db : Db) : Step → Db → Prop
  | kept (s : Step) : Does db s db
  | issued (userId planId : ℕ) (expiresAt : ℤ) : Does db (.issue userId planId expiresAt)
      { db with vouchers := db.vouchers.insert { userId, planId, expiresAt } }
  | others (subscriptions : Table UserSubscription) :
      Does db (.others subscriptions) { db with subscriptions }
  | redeemed (id : ℕ) (now clock : ℤ) (active audited : Bool) (v : ResetVoucher)
      (result : ResetResult) (hpos : 0 < v.userId ∧ 0 < id) (hv : db.vouchers.get? id = some v)
      (hopen : v.redeemedAt = none) (hexpires : now < v.expiresAt)
      (hcall : redeem v.userId id now active audited db = .ok (result, db.claim id v now result)) :
      Does db (.redeem v.userId id now clock active audited) (db.claim id v now result)

theorem exec_does (s : Step) (db : Db) : Does db s (exec s db) := by
  cases s with
  | issue => exact .issued ..
  | others => exact .others ..
  | redeem userId id now clock active audited =>
    rw [exec]
    cases h : redeem userId id now active audited db with
    | error => exact .kept _
    | ok =>
      have hcall := h
      simp only [redeem, eq_ok] at h
      obtain ⟨hpos, v, hv, rfl, h⟩ := h
      split at h <;> simp only [eq_ok] at h
      next =>
        obtain ⟨_, -, rfl⟩ := h
        exact .kept _
      next hopen =>
        obtain ⟨hexpires, -, -, _, -, -, -, rfl⟩ := h
        exact .redeemed id now clock active audited v _ hpos hv (not_not.1 hopen) hexpires hcall

variable {db : Db} {id userId : ℕ} {v : ResetVoucher} {e : ResetResult}

/-- A reset counts the version up, so that a claim changes exactly the rows it resets. -/
theorem claim_changes {j : ℕ} {x : UserSubscription} {now : ℤ}
    (hx : db.subscriptions.get? j = some x) :
    (db.claim id v now e).subscriptions.get? j ≠ some x ↔ Resets v.userId v.planId now x := by
  rw [Db.claim, get?_modifyWhere, hx, Option.map_some, Ne, Option.some.injEq]
  split
  next h => simpa only [h, iff_true] using fun heq =>
    (lt_add_one x.quotaVersion).ne' (congrArg UserSubscription.quotaVersion heq)
  next h => simp only [h, not_true]

/-- The voucher of a user is redeemed, with an event. -/
structure Redeemed (id userId : ℕ) (e : ResetResult) (db : Db) : Prop where
  voucher : ∃ v, db.vouchers.get? id = some v ∧ v.userId = userId ∧ v.redeemedAt ≠ none
  event : db.events id = some e

theorem redeemed_claim (hv : db.vouchers.get? id = some v) (now : ℤ) :
    Redeemed id v.userId e (db.claim id v now e) where
  voucher := ⟨_, (get?_modify_self ..).trans (congrArg _ hv), rfl, nofun⟩
  event := update_self ..

/-- A redeemed voucher stays as it is. -/
theorem Redeemed.exec (s : Step) (h : Redeemed id userId e db) :
    Redeemed id userId e (exec s db) := by
  obtain ⟨⟨v, hv, hown, hred⟩, he⟩ := h
  have hd := exec_does s db
  generalize Voucher.exec s db = db' at hd
  cases hd with
  | kept | others => exact ⟨⟨v, hv, hown, hred⟩, he⟩
  | issued => exact ⟨⟨v, get?_insert_of_get? hv, hown, hred⟩, he⟩
  | redeemed i _ _ _ _ _ _ _ hw hopen =>
    have hne : id ≠ i := by
      rintro rfl
      exact hred (mem_unique hv hw ▸ hopen)
    exact ⟨⟨v, (get?_modify_of_ne _ _ hne).trans hv, hown, hred⟩, (update_of_ne hne ..).trans he⟩

/-- A call for a redeemed voucher returns the counts of its event. -/
theorem Redeemed.redeem (h : Redeemed id userId e db) (hpos : 0 < userId ∧ 0 < id) (now : ℤ)
    (active audited : Bool) : ∃ result, redeem userId id now active audited db = .ok (result, db) ∧
      result.resetCount = e.resetCount ∧ result.restoredQuota = e.restoredQuota := by
  obtain ⟨⟨v, hv, hown, hred⟩, he⟩ := h
  refine ⟨⟨v.planId, e.resetCount, e.restoredQuota⟩, ?_, rfl, rfl⟩
  simp only [Voucher.redeem, eq_ok]
  refine ⟨hpos, v, hv, hown, ?_⟩
  rw [if_pos hred]
  simp only [eq_ok]
  exact ⟨e, he, rfl, trivial⟩

/-- **A voucher is redeemed once**: in every run, the step that redeems a voucher is a call of its
user, and resets the subscriptions of the user for the plan that are active at the time it has read.
The voucher and the subscriptions that the step changes have not ended when it is claimed if and
only if none of them ends in the wait. No later step redeems the voucher, and every later call of the user returns the
same counts and changes nothing. A call that does not redeem its voucher changes nothing. -/
theorem voucher_redeemed_once (steps : List Step) (id : ℕ) : let db := run exec .empty steps
    (∀ s, Redeems id s db → ∃ userId now clock active audited v result,
      s = .redeem userId id now clock active audited ∧ db.vouchers.get? id = some v ∧
      v.userId = userId ∧ redeem userId id now active audited db = .ok (result, exec s db) ∧
      (∀ j, (exec s db).subscriptions.get? j = (db.subscriptions.get? j).map fun x =>
        if Resets userId v.planId now x then reset x else x) ∧
      ((clock < v.expiresAt ∧ ∀ j x, db.subscriptions.get? j = some x →
        (exec s db).subscriptions.get? j ≠ some x → clock < x.endTime) ↔ InTime s db) ∧
      ∀ later, ¬Occurs exec (Redeems id) (exec s db) later ∧ ∀ now' active' audited',
        let db' := run exec (exec s db) later
        ∃ result', redeem userId id now' active' audited' db' = .ok (result', db') ∧
          result'.resetCount = result.resetCount ∧
          result'.restoredQuota = result.restoredQuota) ∧
    ∀ userId now clock active audited, ¬Redeems id (.redeem userId id now clock active audited) db →
      exec (.redeem userId id now clock active audited) db = db := by
  intro db
  refine ⟨fun s hs => ?_, fun userId now clock active audited hnot => ?_⟩
  · obtain ⟨⟨v, hv, hopen⟩, v', hv', hred⟩ := hs
    have hd := exec_does s db
    generalize exec s db = db' at hd hv' ⊢
    cases hd with
    | kept | others => exact absurd (mem_unique hv hv' ▸ hopen) hred
    | issued => exact absurd (mem_unique (get?_insert_of_get? hv) hv' ▸ hopen) hred
    | redeemed i now clock active audited _ result hpos hw _ hexpires hcall =>
      obtain rfl : i = id := by
        by_contra hne
        rw [Db.claim, get?_modify_of_ne _ _ (Ne.symm hne)] at hv'
        exact hred (mem_unique hv hv' ▸ hopen)
      obtain rfl := mem_unique hv hw
      refine ⟨_, now, clock, active, audited, v, result, rfl, hv, rfl, hcall,
        fun j => get?_modifyWhere .., ?_, fun later => ?_⟩
      · simp only [InTime, hw, Option.some.injEq, forall_eq', hexpires, true_imp_iff]
        refine and_congr_right fun _ => forall₂_congr fun j x => imp_congr_right fun hx => ?_
        rw [claim_changes hx]
      have hclaim := redeemed_claim (e := result) hv now
      refine ⟨not_occurs (fun db s _ h hs => ?_) (fun _ s _ => Redeemed.exec s) hclaim
        (along_of_forall (fun _ _ => trivial) _ later), fun now' active' audited' => ?_⟩
      · obtain ⟨v, hv, -, hred⟩ := h.voucher
        obtain ⟨⟨v', hv', hopen⟩, -⟩ := hs
        exact hred (mem_unique hv hv' ▸ hopen)
      · exact (run_rule_any (fun _ s => Redeemed.exec s) hclaim later).redeem hpos ..
  · have hd := exec_does (.redeem userId id now clock active audited) db
    generalize heq : exec (.redeem userId id now clock active audited) db = db' at hd ⊢
    cases hd with
    | kept => rfl
    | redeemed _ _ _ _ _ v result _ hv hopen =>
      obtain ⟨v', hv', -, hred⟩ := (redeemed_claim (e := result) hv now).voucher
      exact absurd ⟨⟨v, hv, hopen⟩, v', heq ▸ hv', hred⟩ hnot

/-- A voucher expires while its call waits for the lock, and is redeemed all the same. -/
theorem expired_voucher_redeemed :
    let subs := Table.empty.insert ⟨1, 1, 0, 5, 0, 0, 1000, .active, 0, 0, true⟩
    let db := run exec .empty [.issue 1 1 100, .others subs]
    Redeems 1 (.redeem 1 1 99 150 true true) db ∧
      ∃ v, db.vouchers.get? 1 = some v ∧ ¬(150 : ℤ) < v.expiresAt :=
  ⟨⟨⟨_, rfl, rfl⟩, _, rfl, nofun⟩, _, rfl, by decide⟩

end LmmApi.Subscription.Voucher
