import LmmApi.Lib.Delivery
import LmmApi.Recurring.Payment

/-!
# Payments in any order

The provider delivers the payments of an order in any order and any number of times. For payments of
distinct periods that have not ended, the period and the quota at the end are those of the payment
whose period ends last, whatever the order of the deliveries, and a payment that does not end later
than one before it leaves the used quota alone.

The property of the tables that carries the induction is `Follows`: the rows of the order are the
payments delivered so far, and the period is that of the latest of them.
-/

namespace LmmApi.Recurring

open Guarded Go Attribution List Option Table PaymentEvidence
open Subscription (SubscriptionStatus)

variable {env : Env} {db : Db} {tradeNo providerSubscriptionId state : String} {id : ℕ}
  {order order' : Order} {sub : UserSubscription} {plan : Plan} {e last : PaymentEvidence}
  {events seen : List PaymentEvidence} {total : ℤ}

/-! ## Deliveries -/

/-- A step of a run: a payment is delivered, or someone else writes the tables. -/
inductive PaymentStep
  | deliver (env : Env) (e : PaymentEvidence) (providerSubscriptionId state : String)
  | other (db : Db)

/-- A delivery that fails is rolled back. -/
def PaymentStep.exec (tradeNo : String) : PaymentStep → Db → Db
  | .deliver env e providerSubscriptionId state, db =>
    (applySubscriptionPaymentEvent env tradeNo e providerSubscriptionId state db).toOption.getD db
  | .other db', _ => db'

/-- The payment that a step delivers. -/
def PaymentStep.payment : PaymentStep → Option PaymentEvidence
  | .deliver _ e _ _ => some e
  | .other _ => none

/-- The order is settled: it has a subscription of a live user, which is not cancelled. -/
structure Settled (tradeNo : String) (id : ℕ) (order : Order) (sub : UserSubscription) (db : Db) :
    Prop where
  named : trimSpace tradeNo ≠ ""
  found : db.findOrder tradeNo = some (id, order)
  success : order.status = .success
  granted : 0 < order.userSubscriptionId
  get : db.subscriptions.get? order.userSubscriptionId = some sub
  owner : order.userId = 0 ∨ sub.userId = order.userId
  live : (db.liveUser sub.userId).isSome
  usable : sub.status ≠ .cancelled

/-- The payment is one of the order: it is complete, and the provider, the amount and the currency
are those of the order. -/
def PaymentEvidence.Valid (order : Order) (e : PaymentEvidence) : Prop :=
  e.trimmed.Complete ∧ order.paymentProvider = e.trimmed.paymentProvider ∧
    (order.expectedAmountMicros ≤ 0 ∨
      order.expectedAmountMicros = e.trimmed.settlementAmountMicros) ∧
    (toUpper (trimSpace order.settlementCurrency) = "" ∨
      toUpper (trimSpace order.settlementCurrency) = e.trimmed.settlementCurrency)
  deriving Decidable

/-- No two payments have an event, a transaction or the end of a period in common. -/
def Distinct (events : List PaymentEvidence) : Prop :=
  ∀ e ∈ events, ∀ e' ∈ events, e ≠ e' → e.trimmed.providerEventId ≠ e'.trimmed.providerEventId ∧
      e.trimmed.providerTransactionId ≠ e'.trimmed.providerTransactionId ∧
      e.periodEnd ≠ e'.periodEnd
  deriving Decidable

/-- Another order has a row with the event or the transaction of the payment. -/
def PaymentEvent.ClaimedBy (id : ℕ) (e : PaymentEvidence) (r : PaymentEvent) : Prop :=
  r.orderId ≠ id ∧ (r.providerEventId = e.trimmed.providerEventId ∨
    (r.paymentProvider = e.trimmed.paymentProvider ∧
      r.providerTransactionId = e.trimmed.providerTransactionId))
  deriving Decidable

/-- What others leave of the order and its subscription `sub`: they may use the quota and reset it,
but they neither cancel, refund nor extend the subscription, nor write payments of the order. -/
structure Undisturbed (tradeNo : String) (id : ℕ) (db db' : Db) : Prop where
  found : db'.findOrder tradeNo = db.findOrder tradeNo
  rows : ∀ j r, r.orderId = id →
    (db'.paymentEvents.get? j = some r ↔ db.paymentEvents.get? j = some r)
  settled : ∀ order sub, Settled tradeNo id order sub db → ∃ sub', Settled tradeNo id order sub' db' ∧
    sub'.endTime = sub.endTime ∧ sub'.amountTotal = sub.amountTotal

/-- The steps of the runs in question: every payment is one of `events`, its period has not ended,
and no other order has claimed it. -/
def PaymentStep.Admissible (tradeNo : String) (id : ℕ) (order : Order) (plan : Plan)
    (events : List PaymentEvidence) : PaymentStep → Db → Prop
  | .deliver env e _ _, db => e ∈ events ∧ env.now < e.periodEnd ∧
    renewalPlan env order = .ok plan ∧ ¬db.paymentEvents.Any fun _ r => r.ClaimedBy id e
  | .other db', db => Undisturbed tradeNo id db db'

/-! ## One delivery -/

/-- The tables with the row of a payment. -/
def Db.record (db : Db) (row : PaymentEvent) : Db :=
  { db with paymentEvents := db.paymentEvents.insert row }

/-- What a delivery does: nothing for a payment that is recorded, a failure for a payment that
shares a key with another, and otherwise a row, with a new grant if the period ends later than all
before. -/
theorem apply_eq (h : Settled tradeNo id order sub db) (hval : e.Valid order)
    (hpl : renewalPlan env order = .ok plan) (hnow : env.now < e.periodEnd) {user : User}
    (hu : db.liveUser sub.userId = some user) :
    applySubscriptionPaymentEvent env tradeNo e providerSubscriptionId state db =
      if db.paymentEvents.Any fun _ r => r.SharesKey id e.trimmed ∧ r.Records id e.trimmed then
        .ok db else if db.paymentEvents.Any fun _ r => r.SharesKey id e.trimmed then
        .error (.evidenceConflict "conflicting recurring subscription payment evidence")
      else if 0 < (db.priorPayments id).1 ∧ e.trimmed.periodEnd ≤ (db.priorPayments id).2 then
        .ok (db.record (e.trimmed.row id env.now)) else
        .ok (applyGrant env ((db.priorPayments id).1 = 0) false plan e.trimmed
          providerSubscriptionId state id order sub user
          (db.record (e.trimmed.row id env.now))) := by
  obtain ⟨hcp, hpv, hamt, hcur⟩ := hval
  have hlock : lockUserSubscription (db.record (e.trimmed.row id env.now)) order.userSubscriptionId
      order.userId = .ok (sub, user) :=
    lockUserSubscription_eq_ok.2 ⟨h.granted, h.get, h.owner, hu⟩
  have hgra : grantPayment env false plan (db.priorPayments id) e.trimmed providerSubscriptionId
      state id order (db.record (e.trimmed.row id env.now)) =
        .ok (applyGrant env ((db.priorPayments id).1 = 0) false plan e.trimmed
          providerSubscriptionId state id order sub user
          (db.record (e.trimmed.row id env.now))) := by
    have hend : ¬e.trimmed.periodEnd ≤ env.now := not_le.2 hnow
    have husa : ¬(sub.status = .cancelled ∧ e.trimmed.periodStart ≤ sub.updatedAt) :=
      fun hc => h.usable hc.1
    rw [grantPayment, hlock, ok_bind]
    simp only [if_neg hend, if_neg husa]
    rfl
  rw [applySubscriptionPaymentEvent, applySubscriptionPaymentEventTx, require_of h.named, ok_bind]
  simp only []
  rw [require_of hcp, ok_bind, h.found, orFail_some, ok_bind]
  simp only []
  rw [require_of hpv, ok_bind, require_of ⟨h.success, h.granted⟩, ok_bind, hpl, ok_bind,
    require_of hamt, ok_bind, require_of hcur, ok_bind]
  split
  · rfl
  by_cases hsh : db.paymentEvents.Any fun _ r => r.SharesKey id e.trimmed
  · rw [require, if_neg (not_not.2 hsh), if_pos hsh]
    rfl
  · rw [require_of hsh, ok_bind, if_neg hsh]
    split
    · rfl
    · exact hgra

/-! ## What the rows of the order say -/

theorem mem_payments {r : PaymentEvent} :
    (r ∈ (db.paymentEvents.rows.map Prod.snd).filter fun r => r.orderId = id) ↔
      ∃ j, db.paymentEvents.get? j = some r ∧ r.orderId = id := by
  simp [get?_eq_some_iff]

theorem priorPayments_pos :
    0 < (db.priorPayments id).1 ↔ ∃ j r, db.paymentEvents.get? j = some r ∧ r.orderId = id := by
  simp only [Db.priorPayments, length_pos_iff_exists_mem, mem_payments]
  exact exists_comm

/-- The greatest end of a period is that of a row, and no row has a later one. -/
theorem priorPayments_max {last : ℤ}
    (hm : ∃ j r, db.paymentEvents.get? j = some r ∧ r.orderId = id ∧
      r.period.map Prod.snd = some last)
    (hmax : ∀ j r b, db.paymentEvents.get? j = some r → r.orderId = id →
      r.period.map Prod.snd = some b → b ≤ last) : (db.priorPayments id).2 = last := by
  obtain ⟨j, r, hg, hr, hb⟩ := hm
  have hmax? := max?_eq_some_iff.2 ⟨mem_filterMap.2 ⟨r, mem_payments.2 ⟨j, hg, hr⟩, hb⟩, fun b hb => by
    obtain ⟨r, hr, hb⟩ := mem_filterMap.1 hb
    obtain ⟨j, hg, hr⟩ := mem_payments.1 hr
    exact hmax j r b hg hr hb⟩
  rw [Db.priorPayments, hmax?]
  rfl

/-- The row `j` is that of an event of the order. -/
def Db.RecordedAt (db : Db) (id : ℕ) (e : PaymentEvidence) (j : ℕ) : Prop :=
  ∃ r, db.paymentEvents.get? j = some r ∧ r.orderId = id ∧
    r.providerEventId = e.trimmed.providerEventId

/-- What the tables hold after the payments `seen`: their rows, each once, and the period of the
latest of them. -/
structure Follows (tradeNo : String) (id : ℕ) (order : Order) (total : ℤ)
    (events seen : List PaymentEvidence) (db : Db) : Prop where
  known : ∀ e ∈ seen, e ∈ events
  settled : ∃ order' sub, Settled tradeNo id order' sub db ∧ order'.terms = order.terms ∧
    sub.amountTotal = total ∧ ∀ e, IsLatest PaymentEvidence.periodEnd seen e →
      sub.endTime = e.periodEnd ∧ order'.currentPeriodStart = e.periodStart ∧
        order'.currentPeriodEnd = e.periodEnd
  row : ∀ j r, db.paymentEvents.get? j = some r → r.orderId = id →
    ∃ e ∈ seen, ∃ now, r = e.trimmed.row id now
  once : ∀ e ∈ seen, ∃! j, db.RecordedAt id e j

theorem Distinct.eq (h : Distinct events) {e e' : PaymentEvidence} (he : e ∈ events)
    (he' : e' ∈ events) (hid : e.trimmed.providerEventId = e'.trimmed.providerEventId) :
    e = e' := by
  by_contra hne
  exact (h e he e' he' hne).1 hid

namespace Follows

section

variable (h : Follows tradeNo id order total events seen db) (hdis : Distinct events)
include h hdis

/-- Every payment has its row. -/
theorem exists_row
    (he : e ∈ seen) : ∃ j now, db.paymentEvents.get? j = some (e.trimmed.row id now) := by
  obtain ⟨j, ⟨r, hg, hid, hev⟩, -⟩ := h.once e he
  obtain ⟨e', he', now, rfl⟩ := h.row j r hg hid
  have heq : e' = e := hdis.eq (h.known e' he') (h.known e he) hev
  exact ⟨j, now, heq ▸ hg⟩

/-- The payments that were seen, as the next one finds them. -/
theorem priorPayments (hl : IsLatest periodEnd seen last) :
    0 < (db.priorPayments id).1 ∧ (db.priorPayments id).2 = last.periodEnd := by
  obtain ⟨j, _, hg⟩ := h.exists_row hdis hl.1
  refine ⟨priorPayments_pos.2 ⟨j, _, hg, rfl⟩, priorPayments_max ⟨j, _, hg, rfl, rfl⟩ ?_⟩
  intro j' r b hg' hid hb
  obtain ⟨e', he', _, rfl⟩ := h.row j' r hg' hid
  obtain rfl : e'.periodEnd = b := some.inj hb
  exact hl.2 e' he'

/-- A payment that was seen is recognised. -/
theorem recorded (he : e ∈ seen) :
    db.paymentEvents.Any fun _ r => r.SharesKey id e.trimmed ∧ r.Records id e.trimmed := by
  obtain ⟨j, _, hg⟩ := h.exists_row hdis he
  exact any_iff.2 ⟨j, _, hg, .inl rfl, rfl, rfl, rfl, rfl, rfl, rfl, rfl⟩

/-- A payment that was not seen shares no key with a row. -/
theorem not_shared (he : e ∈ events) (hnew : e ∉ seen)
    (hfr : ¬db.paymentEvents.Any fun _ r => r.ClaimedBy id e) :
    ¬db.paymentEvents.Any fun _ r => r.SharesKey id e.trimmed := by
  intro hany
  obtain ⟨j, r, hg, hsh⟩ := any_iff.1 hany
  by_cases hid : r.orderId = id
  · obtain ⟨e', he', _, rfl⟩ := h.row j r hg hid
    have hne : e' ≠ e := ne_of_mem_of_not_mem he' hnew
    obtain ⟨hev, htra, hend⟩ := hdis e' (h.known e' he') e he hne
    rcases hsh with hk | ⟨-, hk⟩ | ⟨-, hk⟩
    · exact hev hk
    · exact htra hk
    · exact hend (some.inj hk)
  · rcases hsh with hk | hk | ⟨hk, -⟩
    · exact hfr (any_iff.2 ⟨j, r, hg, hid, .inl hk⟩)
    · exact hfr (any_iff.2 ⟨j, r, hg, hid, .inr hk⟩)
    · exact hid hk

/-- A new row for a new payment. -/
theorem of_insert {db' : Db} (he : e ∈ events) (hnew : e ∉ seen) {now : ℤ}
    (hrs : db'.paymentEvents = db.paymentEvents.insert (e.trimmed.row id now))
    (hset : ∃ order' sub, Settled tradeNo id order' sub db' ∧ order'.terms = order.terms ∧
      sub.amountTotal = total ∧ ∀ d, IsLatest periodEnd (seen ++ [e]) d →
        sub.endTime = d.periodEnd ∧ order'.currentPeriodStart = d.periodStart ∧
          order'.currentPeriodEnd = d.periodEnd) :
    Follows tradeNo id order total events (seen ++ [e]) db' := by
  refine ⟨?_, hset, ?_, ?_⟩
  · exact forall_mem_append.2 ⟨h.known, forall_mem_singleton.2 he⟩
  · intro j r hg hid
    rw [hrs] at hg
    rcases get?_insert_cases hg with ⟨-, rfl⟩ | hg
    · exact ⟨e, mem_append_right _ (mem_singleton_self e), now, rfl⟩
    · obtain ⟨d, hd, hr⟩ := h.row j r hg hid
      exact ⟨d, mem_append_left _ hd, hr⟩
  · intro d hd
    -- the row of a payment seen before is where it was, and the new payment has the new row only
    rcases mem_append.1 hd with hd | hd
    · obtain ⟨j, ⟨r, hg, hr⟩, huni⟩ := h.once d hd
      refine ⟨j, ⟨r, hrs ▸ get?_insert_of_get? hg, hr⟩, ?_⟩
      rintro j' ⟨r', hg', hid, hev⟩
      rw [hrs] at hg'
      rcases get?_insert_cases hg' with ⟨-, rfl⟩ | hg'
      · exact absurd (hdis.eq he (h.known d hd) hev ▸ hd) hnew
      · exact huni j' ⟨r', hg', hid, hev⟩
    · obtain rfl := mem_singleton.1 hd
      refine ⟨db.paymentEvents.next, ⟨_, hrs ▸ get?_insert_self _ _, rfl, rfl⟩, ?_⟩
      rintro j' ⟨r', hg', hid, hev⟩
      rw [hrs] at hg'
      rcases get?_insert_cases hg' with ⟨hj, -⟩ | hg'
      · exact hj
      · obtain ⟨e', he', _, rfl⟩ := h.row j' r' hg' hid
        exact absurd (hdis.eq (h.known e' he') he hev ▸ he') hnew

end

end Follows

/-! ## Grants -/

section

variable (h : Settled tradeNo id order sub db)
include h

/-- A settled order whose rows are saved again stays settled. -/
theorem Settled.save {order' : Order} {sub' : UserSubscription} (hter : order'.terms = order.terms)
    (hown : sub'.userId = sub.userId) (hst : sub'.status ≠ .cancelled) :
    Settled tradeNo id order' sub'
      ((db.saveSubscription order.userSubscriptionId sub').saveOrder id order') := by
  have hnm : order'.tradeNo = order.tradeNo := (congrArg Order.tradeNo hter :)
  have hsuc : order'.status = order.status := (congrArg Order.status hter :)
  have hsub : order'.userSubscriptionId = order.userSubscriptionId :=
    (congrArg Order.userSubscriptionId hter :)
  have hu : order'.userId = order.userId := (congrArg Order.userId hter :)
  have hg : ((db.saveSubscription order.userSubscriptionId sub').saveOrder id
      order').subscriptions.get? order.userSubscriptionId = some sub' := by
    simp only [Db.saveOrder, Db.saveSubscription, get?_modify_self, h.get, map_some]
  refine ⟨h.named, ?_, hsuc ▸ h.success, hsub ▸ h.granted, hsub ▸ hg, ?_, ?_, hst⟩
  · exact Db.findOrder_saveOrder (show (db.saveSubscription _ sub').findOrder tradeNo = _ from
      h.found) hnm
  · rw [hu, hown]
    exact h.owner
  · rw [hown]
    exact h.live

theorem Settled.upgradeUserGroup (sub' : UserSubscription)
    (user : User) : Settled tradeNo id order sub (db.upgradeUserGroup sub' user) := by
  rcases db.upgradeUserGroup_cases sub' user with heq | ⟨_, heq⟩
  · rwa [heq]
  · rw [heq]
    refine ⟨h.named, h.found, h.success, h.granted, h.get, h.owner, ?_, h.usable⟩
    rw [Db.isSome_liveUser_setGroup]
    exact h.live

/-- What a new grant leaves: the period of the payment, and the quota of the plan. -/
theorem Settled.applyGrant (env : Env) (e : PaymentEvidence) (user : User) (isFirst : Bool)
    (htot : plan.totalAmount ≤ 0 ∨ sub.amountTotal = plan.totalAmount) :
    ∃ order' sub', Settled tradeNo id order' sub' (applyGrant env isFirst false plan e
        providerSubscriptionId state id order sub user db) ∧ order'.terms = order.terms ∧
      sub'.amountTotal = sub.amountTotal ∧ sub'.endTime = e.periodEnd ∧
      order'.currentPeriodStart = e.periodStart ∧ order'.currentPeriodEnd = e.periodEnd := by
  cases isFirst with
  | true => exact ⟨_, _, h.save rfl rfl h.usable, rfl, rfl, rfl, rfl, rfl⟩
  | false =>
    refine ⟨_, _, (h.upgradeUserGroup _ user).save rfl rfl (fun h => nomatch h), rfl, ?_, rfl, rfl,
      rfl⟩
    show (if 0 < plan.totalAmount then plan.totalAmount else sub.amountTotal) = sub.amountTotal
    split <;> omega

end

theorem applyGrant_paymentEvents (isFirst : Bool) (user : User) :
    (applyGrant env isFirst false plan e providerSubscriptionId state id order sub user
      db).paymentEvents = db.paymentEvents := by
  cases isFirst with
  | true => rfl
  | false =>
    simp only [applyGrant, Db.saveOrder, Db.saveSubscription, Db.upgradeUserGroup_paymentEvents,
      true_or, if_true]

theorem PaymentEvidence.Valid.of_terms (h : e.Valid order) (hter : order'.terms = order.terms) :
    e.Valid order' := by
  show e.Valid order'.terms
  rw [hter]
  exact h

theorem renewalPlan_of_terms (hter : order'.terms = order.terms) :
    renewalPlan env order' = renewalPlan env order := by
  show renewalPlan env order'.terms = _
  rw [hter]
  rfl

/-! ## Whole runs -/

open PaymentStep

namespace Follows

section

variable (h : Follows tradeNo id order total events seen db) (hdis : Distinct events)
  (hval : e.Valid order)
  (hadm : (PaymentStep.deliver env e providerSubscriptionId state).Admissible tradeNo id order plan events db)
include h hdis hval hadm

/-- A payment that was seen changes nothing. -/
theorem deliver_of_mem (hseen : e ∈ seen) :
    (deliver env e providerSubscriptionId state).exec tradeNo db = db := by
  obtain ⟨-, hnow, hpl, -⟩ := hadm
  obtain ⟨_, _, hset, hter, -⟩ := h.settled
  obtain ⟨_, hu⟩ := isSome_iff_exists.1 hset.live
  rw [exec, apply_eq hset (hval.of_terms hter)
    ((renewalPlan_of_terms hter).trans hpl) hnow hu, if_pos (h.recorded hdis hseen)]
  rfl

/-- A new payment is recorded, and if its period ends later than those of all payments before it is
a new grant. -/
theorem deliver_of_not_mem (hnew : e ∉ seen) :
    ∃ order' sub user, Settled tradeNo id order' sub db ∧ order'.terms = order.terms ∧
      (deliver env e providerSubscriptionId state).exec tradeNo db =
        if 0 < (db.priorPayments id).1 ∧ e.trimmed.periodEnd ≤ (db.priorPayments id).2 then
          db.record (e.trimmed.row id env.now)
        else applyGrant env ((db.priorPayments id).1 = 0) false plan e.trimmed
          providerSubscriptionId state id order' sub user
          (db.record (e.trimmed.row id env.now)) := by
  obtain ⟨he, hnow, hpl, hfr⟩ := hadm
  obtain ⟨order', sub, hset, hter, -⟩ := h.settled
  obtain ⟨user, hu⟩ := isSome_iff_exists.1 hset.live
  have hsh := h.not_shared hdis he hnew hfr
  have hrec : ¬db.paymentEvents.Any fun _ r =>
      r.SharesKey id e.trimmed ∧ r.Records id e.trimmed := by
    rintro ⟨r, hr, hk, -⟩
    exact hsh ⟨r, hr, hk⟩
  refine ⟨order', sub, user, hset, hter, ?_⟩
  rw [exec, apply_eq hset (hval.of_terms hter)
    ((renewalPlan_of_terms hter).trans hpl) hnow hu, if_neg hrec, if_neg hsh]
  split <;> rfl

end

end Follows

theorem Settled.record (h : Settled tradeNo id order sub db) (row : PaymentEvent) :
    Settled tradeNo id order sub (db.record row) :=
  ⟨h.named, h.found, h.success, h.granted, h.get, h.owner, h.live, h.usable⟩

theorem Settled.unique {sub' : UserSubscription} (h : Settled tradeNo id order sub db)
    (h' : Settled tradeNo id order' sub' db) : order' = order ∧ sub' = sub := by
  have hord : order = order' := (Prod.mk.inj (mem_unique h.found h'.found)).2
  subst hord
  exact ⟨rfl, mem_unique h'.get h.get⟩

namespace Follows

section

variable (h : Follows tradeNo id order total events seen db) (hdis : Distinct events)
  (hval : e.Valid order)
include h hdis hval

/-- A payment of a period that ends no later than that of a payment before leaves the order and the
subscription as they are. -/
theorem deliver_frame
    (hadm : (deliver env e providerSubscriptionId state).Admissible tradeNo id
      order plan events db) (hl : IsLatest periodEnd seen last)
    (hle : e.periodEnd ≤ last.periodEnd) :
    (deliver env e providerSubscriptionId state).exec tradeNo db = db ∨
      (deliver env e providerSubscriptionId state).exec tradeNo db =
        db.record (e.trimmed.row id env.now) := by
  by_cases hseen : e ∈ seen
  · exact .inl (h.deliver_of_mem hdis hval hadm hseen)
  · obtain ⟨_, _, _, -, -, heq⟩ := h.deliver_of_not_mem hdis hval hadm hseen
    obtain ⟨hpos, hmax⟩ := h.priorPayments hdis hl
    rw [if_pos ⟨hpos, hmax ▸ hle⟩] at heq
    exact .inr heq

/-- **A delivery**: the payment joins those that the tables follow. -/
theorem deliver (htot : plan.totalAmount ≤ 0 ∨ total = plan.totalAmount)
    (hadm : (PaymentStep.deliver env e providerSubscriptionId state).Admissible tradeNo id
      order plan events db) : Follows tradeNo id order total events (seen ++ [e])
      ((PaymentStep.deliver env e providerSubscriptionId state).exec tradeNo db) := by
  have he : e ∈ events := hadm.1
  obtain ⟨order', sub, hset, hter, hamt, hlat⟩ := h.settled
  by_cases hseen : e ∈ seen
  · rw [h.deliver_of_mem hdis hval hadm hseen]
    have hm d : d ∈ seen ++ [e] ↔ d ∈ seen := by
      rw [mem_append, mem_singleton]
      exact or_iff_left_of_imp fun hd => hd ▸ hseen
    refine ⟨fun d hd => h.known d ((hm d).1 hd), ⟨order', sub, hset, hter, hamt, ?_⟩, ?_,
      fun d hd => h.once d ((hm d).1 hd)⟩
    · intro d hd
      exact hlat d ((isLatest_congr hm).1 hd)
    · intro j r hg hid
      obtain ⟨d, hd, hr⟩ := h.row j r hg hid
      exact ⟨d, (hm d).2 hd, hr⟩
  · obtain ⟨order₁, sub₁, user, hset₁, -, heq⟩ := h.deliver_of_not_mem hdis hval hadm hseen
    obtain ⟨rfl, rfl⟩ := hset.unique hset₁
    rw [heq]
    split
    · rename_i hlate
      refine h.of_insert hdis he hseen rfl
        ⟨order₁, sub₁, hset.record _, hter, hamt, fun d hd => hlat d ?_⟩
      obtain ⟨j, r, hg, hid⟩ := priorPayments_pos.1 hlate.1
      obtain ⟨d', hd', -⟩ := h.row j r hg hid
      obtain ⟨last, hl⟩ := exists_isLatest periodEnd (ne_nil_of_mem hd')
      have hle : e.periodEnd ≤ last.periodEnd := (h.priorPayments hdis hl).2 ▸ hlate.2
      have hne : e.periodEnd ≠ last.periodEnd :=
        (hdis e he last (h.known last hl.1) (ne_of_mem_of_not_mem hl.1 hseen).symm).2.2
      exact IsLatest.of_append_of_lt hl.1 (lt_of_le_of_ne hle hne) hd
    · rename_i hlate
      have hlt e' (he' : e' ∈ seen) : e'.periodEnd < e.periodEnd := by
        obtain ⟨last, hl⟩ := exists_isLatest periodEnd (ne_nil_of_mem he')
        obtain ⟨hpos, hmax⟩ := h.priorPayments hdis hl
        have hgt : last.periodEnd < e.periodEnd := not_le.1 fun hle => hlate ⟨hpos, hmax ▸ hle⟩
        exact (hl.2 e' he').trans_lt hgt
      obtain ⟨order₂, sub₂, hset₂, hter₂, hamt₂, hper⟩ :=
        (hset.record (e.trimmed.row id env.now)).applyGrant env e.trimmed user
          ((db.priorPayments id).1 = 0) (hamt ▸ htot)
      refine h.of_insert hdis he hseen (applyGrant_paymentEvents _ user)
        ⟨order₂, sub₂, hset₂, hter₂.trans hter, hamt₂.trans hamt, fun d hd => ?_⟩
      rw [hd.eq_of_append hlt]
      exact hper

omit hdis hval in
/-- A step of someone else. -/
theorem undisturbed {db' : Db}
    (hoth : Undisturbed tradeNo id db db') : Follows tradeNo id order total events seen db' := by
  obtain ⟨order', sub, hset, hter, hamt, hlat⟩ := h.settled
  obtain ⟨sub', hset', hend, htot⟩ := hoth.settled order' sub hset
  refine ⟨h.known, ⟨order', sub', hset', hter, htot.trans hamt, ?_⟩, ?_, ?_⟩
  · intro e he
    rw [hend]
    exact hlat e he
  · intro j r hg hid
    exact h.row j r ((hoth.rows j r hid).1 hg) hid
  · intro e he
    have hiff : ∀ j, db'.RecordedAt id e j ↔ db.RecordedAt id e j := fun j =>
      exists_congr fun r => and_congr_left fun hr => hoth.rows j r hr.1
    simp only [hiff]
    exact h.once e he

end

/-- A step of the run. -/
theorem step (hdis : Distinct events) (hval : ∀ e ∈ events, e.Valid order)
    (htot : plan.totalAmount ≤ 0 ∨ total = plan.totalAmount) (seen : List PaymentEvidence)
    (db : Db) (i : PaymentStep) (hadm : i.Admissible tradeNo id order plan events db)
    (h : Follows tradeNo id order total events seen db) :
    Follows tradeNo id order total events (seen ++ i.payment.toList) (i.exec tradeNo db) := by
  cases i with
  | deliver _ e => exact h.deliver hdis (hval e hadm.1) htot hadm
  | other =>
    rw [payment, toList_none, append_nil]
    exact h.undisturbed hadm

end Follows

/-- The subscription of an order. -/
def subscriptionOf (tradeNo : String) (db : Db) : Option UserSubscription :=
  (db.findOrder tradeNo).bind fun o => db.subscriptions.get? o.2.userSubscriptionId

theorem Settled.subscriptionOf (h : Settled tradeNo id order sub db) :
    subscriptionOf tradeNo db = some sub := by
  rw [Recurring.subscriptionOf, h.found]
  exact h.get

/-- **Payments in any order**: for a settled order without payments, and a run that delivers all of
`events` in any order and any number of times,

* the period at the end is that of the payment whose period ends last, with the quota of the plan;
* every payment has exactly one row;
* after the first delivery no delivery makes the subscription end earlier;
* a delivery of a period that ends no later than one delivered before leaves the used quota. -/
theorem payments_order_independent {steps : List PaymentStep}
    (hsettled : Settled tradeNo id order sub db)
    (hfresh : ¬db.paymentEvents.Any fun _ r => r.orderId = id)
    (htotal : plan.totalAmount ≤ 0 ∨ sub.amountTotal = plan.totalAmount)
    (hvalid : ∀ e ∈ events, e.Valid order) (hdistinct : Distinct events)
    (hsteps : Along (PaymentStep.exec tradeNo)
      (PaymentStep.Admissible tradeNo id order plan events) db steps)
    (hall : ∀ e ∈ events, e ∈ delivered PaymentStep.payment steps) :
    (∀ e, IsLatest PaymentEvidence.periodEnd events e →
      ∃ order' sub', Settled tradeNo id order' sub' (run (PaymentStep.exec tradeNo) db steps) ∧
        sub'.endTime = e.periodEnd ∧ order'.currentPeriodStart = e.periodStart ∧
        order'.currentPeriodEnd = e.periodEnd ∧ sub'.amountTotal = sub.amountTotal) ∧
    (∀ e ∈ events, ∃! j, (run (PaymentStep.exec tradeNo) db steps).RecordedAt id e j) ∧
    ∀ before env e providerSubscriptionId state after,
      steps = before ++ .deliver env e providerSubscriptionId state :: after →
      ∃ sub₁ sub₂, subscriptionOf tradeNo (run (PaymentStep.exec tradeNo) db before) = some sub₁ ∧
        subscriptionOf tradeNo ((PaymentStep.deliver env e providerSubscriptionId state).exec
          tradeNo (run (PaymentStep.exec tradeNo) db before)) = some sub₂ ∧
        (delivered PaymentStep.payment before ≠ [] → sub₁.endTime ≤ sub₂.endTime) ∧
        ((∃ e' ∈ delivered PaymentStep.payment before, e.periodEnd ≤ e'.periodEnd) →
          sub₂.amountUsed = sub₁.amountUsed) := by
  have hstart : Follows tradeNo id order sub.amountTotal events [] db := by
    refine ⟨(fun e he => nomatch he), ⟨order, sub, hsettled, rfl, rfl, (fun e he => nomatch he.1)⟩,
      ?_, (fun e he => nomatch he)⟩
    intro j r hget hid
    exact absurd (any_iff.2 ⟨j, r, hget, hid⟩) hfresh
  have hfollows : ∀ {steps}, Along (exec tradeNo)
      (PaymentStep.Admissible tradeNo id order plan events) db steps →
      Follows tradeNo id order sub.amountTotal events (delivered PaymentStep.payment steps)
        (run (exec tradeNo) db steps) := fun hsteps =>
    delivery_rule (Follows.step hdistinct hvalid htotal) hstart hsteps
  have hend := hfollows hsteps
  have hmem : ∀ e, e ∈ delivered PaymentStep.payment steps ↔ e ∈ events := fun e =>
    ⟨hend.known e, hall e⟩
  refine ⟨fun e he => ?_, fun e he => hend.once e (hall e he), ?_⟩
  · obtain ⟨order', sub', hsettled', -, hamount, hlatest⟩ := hend.settled
    obtain ⟨hperiod, hfrom, hto⟩ := hlatest e ((isLatest_congr hmem).2 he)
    exact ⟨order', sub', hsettled', hperiod, hfrom, hto, hamount⟩
  · rintro before env e providerSubscriptionId state after rfl
    obtain ⟨hbefore, hadmissible, -⟩ := along_append.1 hsteps
    have hprior := hfollows hbefore
    have hvalid' := hvalid e hadmissible.1
    have hnext := hprior.deliver hdistinct hvalid' htotal hadmissible
    obtain ⟨_, sub₁, hsettled₁, -, -, hlatest₁⟩ := hprior.settled
    obtain ⟨_, sub₂, hsettled₂, -, -, hlatest₂⟩ := hnext.settled
    refine ⟨sub₁, sub₂, hsettled₁.subscriptionOf, hsettled₂.subscriptionOf, ?_, ?_⟩
    · intro hne
      obtain ⟨last₁, hlast₁⟩ := exists_isLatest periodEnd hne
      obtain ⟨last₂, hlast₂⟩ := exists_isLatest periodEnd
        (append_ne_nil_of_left_ne_nil hne [e])
      rw [(hlatest₁ last₁ hlast₁).1, (hlatest₂ last₂ hlast₂).1]
      exact hlast₂.2 last₁ (mem_append_left _ hlast₁.1)
    · rintro ⟨e', he', hle⟩
      obtain ⟨_, hlast⟩ := exists_isLatest periodEnd (ne_nil_of_mem he')
      rcases hprior.deliver_frame hdistinct hvalid' hadmissible hlast
        (hle.trans (hlast.2 e' he')) with heq | heq
      · rw [heq] at hsettled₂
        rw [(hsettled₁.unique hsettled₂).2]
      · rw [heq] at hsettled₂
        rw [((hsettled₁.record _).unique hsettled₂).2]

/-! ### Three deliveries of two payments -/

/-- A monthly plan with 1000 units of quota. -/
def samplePlan : Plan where
  quotaResetPeriod := "never"
  quotaResetCustomSeconds := 0
  id := 1
  priceAmount := 5
  durationUnit := "day"
  durationValue := 30
  customSeconds := 0
  maxPurchasePerUser := 0
  upgradeGroup := "vip"
  downgradeGroup := ""
  totalAmount := 1000
  allowWalletOverflow := none

/-- An order that is not settled yet. -/
def sampleOrder : Order where
  userId := 1
  planId := 1
  money := 5
  tradeNo := "T1"
  paymentMethod := "waffo"
  paymentProvider := "waffo_pancake"
  planSnapshot := .frozen samplePlan
  expectedAmountMicros := 5000000
  settlementCurrency := "USD"

/-- The tables with the order. -/
def sampleDb : Db where
  users := Table.empty.insert ⟨"default", false⟩
  orders := Table.empty.insert sampleOrder
  subscriptions := Table.empty
  paymentEvents := Table.empty
  payments := Table.empty
  periods := Table.empty
  refunds := Table.empty
  ledger := Table.empty
  topUps := Table.empty

/-- The clock of the samples stands at `now`. -/
def sampleEnv (now : ℤ) : Env where
  now
  plans id := if id = 1 then some samplePlan else none
  utcOffset := 0
  moneyOfMicros m := m / 1000000
  div n d := n / d

/-- The tables after the settlement of the order. -/
def settledDb : Db :=
  (completeSubscriptionOrder (sampleEnv 100) "T1" "" "waffo_pancake" "" sampleDb).toOption.getD
    sampleDb

/-- The payment of the `n`-th month. -/
def monthlyPayment (n : ℕ) : PaymentEvidence where
  paymentProvider := "waffo_pancake"
  providerEventId := s!"e{n}"
  providerTransactionId := s!"t{n}"
  settlementCurrency := "usd"
  settlementAmountMicros := 5000000
  periodStart := 1000 * n
  periodEnd := 1000 * (n + 1)

/-- The second payment comes first, and again after the first. -/
def sampleSteps : List PaymentStep :=
  [.deliver (sampleEnv 200) (monthlyPayment 2) "S1" "active",
    .deliver (sampleEnv 300) (monthlyPayment 1) "S1" "active",
    .deliver (sampleEnv 400) (monthlyPayment 2) "S1" "active"]

/-- The order as the settlement leaves it. -/
def settledOrder : Order := (settledDb.orders.get? 1).getD sampleOrder

/-- The subscription as the settlement leaves it. -/
def settledSubscription : UserSubscription :=
  (settledDb.subscriptions.get? 1).getD (newSubscription (sampleEnv 0) 1 samplePlan 0 "")

theorem settled_sample : Settled "T1" 1 settledOrder settledSubscription settledDb where
  named := by decide +kernel
  found := by decide +kernel
  success := by decide +kernel
  granted := by decide +kernel
  get := by decide +kernel
  owner := by decide +kernel
  live := by decide +kernel
  usable := by decide +kernel

theorem payments_out_of_order : (∃ order' sub',
      Settled "T1" 1 order' sub' (run (PaymentStep.exec "T1") settledDb sampleSteps) ∧
        sub'.endTime = 3000 ∧ order'.currentPeriodStart = 2000 ∧ order'.currentPeriodEnd = 3000 ∧
        sub'.amountTotal = settledSubscription.amountTotal) ∧
      ∀ e ∈ [monthlyPayment 1, monthlyPayment 2],
        ∃! j, (run (PaymentStep.exec "T1") settledDb sampleSteps).RecordedAt 1 e j := by
  have hsteps : Along (exec "T1") (PaymentStep.Admissible "T1" 1 settledOrder samplePlan
      [monthlyPayment 1, monthlyPayment 2]) settledDb sampleSteps :=
    ⟨⟨by decide, by decide, rfl, by decide +kernel⟩,
      ⟨by decide, by decide, rfl, by decide +kernel⟩,
      ⟨by decide, by decide, rfl, by decide +kernel⟩, trivial⟩
  obtain ⟨hend, honce, -⟩ := payments_order_independent settled_sample (by decide +kernel)
    (by decide +kernel) (by decide +kernel) (by decide +kernel) hsteps (by decide +kernel)
  exact ⟨hend (monthlyPayment 2) ⟨by decide, by decide⟩, honce⟩

end LmmApi.Recurring
