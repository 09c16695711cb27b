import LmmApi.Recurring.NotRevived

/-!
# Refunds belong to payments

A refund of a recurring order is booked for one payment, and only a refund of the payment of the
current period takes quota back. Renewals start the sums of the order again, but not those of the
payments.

The receipts are the two tables that are never rewritten: the payments and their refunds. What a
step does to them is `Receipts.Grows` for an event and `RefundOutcome` for a refund; `Paid` is kept
by every step, and `Books` relates the refunds of the current payment to the quota that is left.
-/

namespace LmmApi.Recurring

open Guarded Go Attribution Option Table AccountStep

variable {env : Env} {db db' : Db} {tradeNo : String} {id : ℕ} {order order' : Order} {plan : Plan}
  {e : LifecycleEvent}

/-! ## Sums -/

namespace Receipts

variable {x x' : Receipts} {row : PaymentRefund} {pid : ℕ}

/-- No payment of the order is refunded beyond its amount, and only recorded payments are refunded.
-/
structure Paid (id : ℕ) (x : Receipts) : Prop where
  le : ∀ pid p, x.payments.get? pid = some p → p.orderId = id →
    x.refunded pid ≤ p.settlementAmountMicros
  known : ∀ i r, x.refunds.get? i = some r → r.paymentEventId < x.payments.next

theorem revoked_insert (x : Receipts) (row : PaymentRefund) (pid : ℕ) :
    ({ x with refunds := x.refunds.insert row } : Receipts).revoked pid =
      x.revoked pid + if row.paymentEventId = pid then row.quotaRevoked else 0 :=
  sum_insert _ _ _

/-- A new payment has no refunds. -/
theorem Paid.next (h : x.Paid id) :
    x.refunded x.payments.next = 0 ∧ x.revoked x.payments.next = 0 := by
  constructor <;> exact sum_eq_zero fun i r hr => if_neg (h.known i r hr).ne

theorem Paid.grow (h : x.Paid id) (hgr : x.Grows id x') : x'.Paid id := by
  rcases hgr with rfl | ⟨_, -, hpos, rfl, -⟩
  · exact h
  · refine ⟨fun pid p hp hord => ?_, fun i r hr => (h.known i r hr).trans (Nat.lt_succ_self _)⟩
    rcases get?_insert_cases hp with ⟨rfl, rfl⟩ | hp
    · exact h.next.1.trans_le hpos
    · exact h.le pid p hp hord

theorem Paid.refund {p : PaymentEvent} (h : x.Paid id) (hp : x.payments.get? pid = some p)
    (hpid : row.paymentEventId = pid) (hle : x.refunded pid + row.amountMicros ≤ p.settlementAmountMicros) :
    ({ x with refunds := x.refunds.insert row } : Receipts).Paid id := by
  refine ⟨fun j q hq hord => ?_, fun i r hr => ?_⟩
  · rw [refunded, sum_insert, ← refunded, hpid]
    split
    · rename_i hj
      subst hj
      obtain rfl := mem_unique hp hq
      exact hle
    · rw [add_zero]
      exact h.le j q hq hord
  · rcases get?_insert_cases hr with ⟨-, rfl⟩ | hr
    · rw [hpid]
      exact lt_next_of_get? hp
    · exact h.known i r hr

end Receipts

theorem revokedSubscription_amountTotal (env : Env) (plan : Plan) (p : PaymentEvent) (refunded : ℤ)
    (s : UserSubscription) : (revokedSubscription env plan p refunded s).amountTotal =
      remainingTotal env plan p refunded s := by
  unfold revokedSubscription
  simp only []
  split <;> rfl

/-- A refund leaves the quota that was used. -/
theorem revokedSubscription_covers {p : PaymentEvent} {refunded : ℤ} {s : UserSubscription}
    (h : s.amountUsed ≤ s.amountTotal) : (revokedSubscription env plan p refunded s).amountUsed ≤
      (revokedSubscription env plan p refunded s).amountTotal := by
  rw [revokedSubscription_amountUsed, revokedSubscription_amountTotal, remainingTotal]
  split
  · exact le_min h (le_max_right _ _)
  · exact h

/-! ## The books of an order -/

/-- How the receipts of an order and its account fit together, for a finite plan:

* no two of its payments have periods with the same end;
* nothing was taken back for payments of later periods, for payments without a period, or while the order
  had no subscription;
* what was taken back for the payment of the current period is what is missing of the quota, and nothing
  is missing if that payment was not recorded yet;
* the quota covers its use. -/
structure Books (plan : Plan) (id : ℕ) (x : Receipts) (a : Account) : Prop where
  frozen : a.order.planSnapshot = .frozen plan
  unique : ∀ i j p q, x.payments.get? i = some p → x.payments.get? j = some q → p.orderId = id →
    q.orderId = id → p.period ≠ none → p.period.map Prod.snd = q.period.map Prod.snd → i = j
  early : ∀ pid p, x.payments.get? pid = some p → p.orderId = id →
    a.order.userSubscriptionId = 0 ∨ a.order.currentPeriodEnd < p.periodEnd ∨ p.periodEnd ≤ 0 →
    x.revoked pid = 0
  current : ∀ pid p, x.payments.get? pid = some p → p.orderId = id →
    p.periodEnd = a.order.currentPeriodEnd → ∀ s ∈ a.sub,
    x.revoked pid = plan.totalAmount - s.amountTotal
  fresh : (∀ pid p, x.payments.get? pid = some p → p.orderId = id →
    p.periodEnd ≠ a.order.currentPeriodEnd) → ∀ s ∈ a.sub, s.amountTotal = plan.totalAmount
  used : ∀ s ∈ a.sub, s.amountUsed ≤ s.amountTotal

namespace Books

variable {x x' : Receipts} {a a' : Account} {row : PaymentRefund} {pid : ℕ}

/-- A period with an end is not NULL. -/
theorem period_of_end {p : PaymentEvent} (h : p.periodEnd ≠ 0) :
    p.period ≠ none ∧ p.period.map Prod.snd = some p.periodEnd := by
  unfold PaymentEvent.periodEnd at h ⊢
  cases hp : p.period with
  | none =>
    rw [hp] at h
    exact absurd rfl h
  | some => exact ⟨nofun, rfl⟩

section

variable (h : Books plan id x a)
include h

/-- Nothing is missing of the quota before the first period, or without the payment of the current
one. -/
theorem total_eq
    (hc : a.order.currentPeriodEnd ≤ 0 ∨ ∀ pid p, x.payments.get? pid = some p → p.orderId = id →
      p.periodEnd ≠ a.order.currentPeriodEnd) (s : UserSubscription) (hs : s ∈ a.sub) :
    s.amountTotal = plan.totalAmount := by
  rcases hc with hend | hn
  · by_cases hn : ∀ pid p, x.payments.get? pid = some p → p.orderId = id →
        p.periodEnd ≠ a.order.currentPeriodEnd
    · exact h.fresh hn s hs
    · simp only [not_forall, ne_eq, not_not] at hn
      obtain ⟨pid, p, hp, hord, hper⟩ := hn
      have hz := h.early pid p hp hord (.inr (.inr (hper.trans_le hend)))
      have hmis := h.current pid p hp hord hper s hs
      omega
  · exact h.fresh hn s hs

/-- Only some columns of the account matter. -/
theorem congr (hpl : a'.order.planSnapshot = a.order.planSnapshot)
    (hsid : a'.order.userSubscriptionId = a.order.userSubscriptionId)
    (hend : a'.order.currentPeriodEnd = a.order.currentPeriodEnd)
    (hsub : ∀ s' ∈ a'.sub, ∃ s ∈ a.sub, s'.amountTotal = s.amountTotal ∧
      s'.amountUsed ≤ s'.amountTotal) : Books plan id x a' where
  frozen := hpl.trans h.frozen
  unique := h.unique
  early := by
    rw [hsid, hend]
    exact h.early
  current := by
    intro pid p hp hord hper s' hs'
    obtain ⟨s, hs, htot, -⟩ := hsub s' hs'
    rw [htot]
    exact h.current pid p hp hord (hper.trans hend) s hs
  fresh := by
    intro hn s' hs'
    obtain ⟨s, hs, htot, -⟩ := hsub s' hs'
    rw [hend] at hn
    rw [htot]
    exact h.fresh hn s hs
  used := by
    intro s' hs'
    obtain ⟨s, -, -, hud⟩ := hsub s' hs'
    exact hud

theorem grow (hpa : x.Paid id) (hgr : x.Grows id x') : Books plan id x' a := by
  rcases hgr with rfl | ⟨_, -, -, rfl, huni⟩
  · exact h
  · refine ⟨h.frozen, ?_, ?_, ?_, ?_, h.used⟩
    · intro i j p q hp hq hpo hqo hper heq
      rcases get?_insert_cases hp with ⟨rfl, rfl⟩ | hp'
      · rcases get?_insert_cases hq with ⟨rfl, rfl⟩ | hq'
        · rfl
        · exact absurd heq.symm (huni j q hq' hqo hper)
      · rcases get?_insert_cases hq with ⟨rfl, rfl⟩ | hq'
        · refine absurd heq (huni i p hp' hpo ?_)
          intro hn
          rw [hn] at heq
          exact hper (map_eq_none_iff.1 heq)
        · exact h.unique i j p q hp' hq' hpo hqo hper heq
    · intro pid p hp hord hc
      rcases get?_insert_cases hp with ⟨rfl, rfl⟩ | hp
      · exact hpa.next.2
      · exact h.early pid p hp hord hc
    · intro pid p hp hord hend s hs
      rcases get?_insert_cases hp with ⟨rfl, rfl⟩ | hp
      · -- the payment of the current period is recorded after the period was granted
        refine hpa.next.2.trans ?_
        rw [h.total_eq ?_ s hs, sub_self]
        by_cases hcur : a.order.currentPeriodEnd ≤ 0
        · exact .inl hcur
        · refine .inr fun j q hq hqo hqend => ?_
          have hper := period_of_end (hend.trans_ne (not_le.1 hcur).ne')
          have hqpe := period_of_end (hqend.trans_ne (not_le.1 hcur).ne')
          refine huni j q hq hqo hper.1 ?_
          rw [hper.2, hqpe.2, hend, hqend]
      · exact h.current pid p hp hord hend s hs
    · intro hn s hs
      refine h.fresh (fun pid p hp hord => ?_) s hs
      exact hn pid p (get?_insert_of_get? hp) hord

/-- A later period, or a first one, with the whole quota. -/
theorem granted (hpl : a'.order.planSnapshot = a.order.planSnapshot)
    (hnew : a.order.userSubscriptionId = 0 ∧ a.order.currentPeriodEnd ≤ a'.order.currentPeriodEnd ∨
      a.order.currentPeriodEnd < a'.order.currentPeriodEnd)
    (hsid : a'.order.userSubscriptionId = 0 → a.order.userSubscriptionId = 0)
    (hsub : ∀ s ∈ a'.sub, s.amountTotal = plan.totalAmount ∧ s.amountUsed ≤ s.amountTotal) :
    Books plan id x a' := by
  have hz pid p (hp : x.payments.get? pid = some p) (hord : p.orderId = id)
      (hle : a'.order.currentPeriodEnd ≤ p.periodEnd) : x.revoked pid = 0 := by
    refine h.early pid p hp hord ?_
    rcases hnew with ⟨hn, -⟩ | hlt
    · exact .inl hn
    · exact .inr (.inl (hlt.trans_le hle))
  refine ⟨hpl.trans h.frozen, h.unique, ?_, ?_, fun _ s hs => (hsub s hs).1,
    fun s hs => (hsub s hs).2⟩
  · rintro pid p hp hord (hn | hlate | hnull)
    · exact h.early pid p hp hord (.inl (hsid hn))
    · exact hz pid p hp hord hlate.le
    · exact h.early pid p hp hord (.inr (.inr hnull))
  · intro pid p hp hord hend s hs
    rw [hz pid p hp hord hend.ge, (hsub s hs).1, sub_self]

theorem event (hfin : 0 < plan.totalAmount)
    (heff : EventEffect env e a a') : Books plan id x a' := by
  have hsa {o o' : Order} {s : Option UserSubscription} (h : Books plan id x ⟨o, s⟩)
      (hacs : o'.access = o.access) : Books plan id x ⟨o', s⟩ :=
    h.congr (access_planSnapshot hacs) (access_userSubscriptionId hacs)
      (access_currentPeriodEnd hacs) fun s' hs' => ⟨s', hs', rfl, h.used s' hs'⟩
  cases heff with
  | money hacs | ignored hacs | known hacs => exact hsa h hacs
  | @granted o _ s plan' _ _ hacs _ hign hfro hnew hsid =>
    obtain rfl : plan = plan' := Snapshot.frozen.inj (h.frozen.symm.trans hfro)
    have hle : o.currentPeriodEnd ≤ e.periodEnd := not_lt.1 fun hlt => hign (.inr (.inr hlt))
    refine h.granted (access_planSnapshot hacs :) (hnew.imp_left fun hn => ⟨hn, hle⟩)
      (fun hn => absurd hn hsid) ?_
    rintro s ⟨⟩
    simp only [withPeriodStatus_kept]
    exact ⟨rfl, hfin.le⟩
  | @recovered _ _ sub hacs _ _ hend =>
    refine h.congr (access_planSnapshot hacs :) rfl hend.symm ?_
    rintro s ⟨⟩
    refine ⟨sub, rfl, ?_⟩
    simpa only [withPeriodStatus_kept, true_and] using h.used sub rfl

omit h in
/-- A state may set the first period. -/
theorem withState {o : Order} {s s' : Option UserSubscription} (c : StateChange)
    (h : Books plan id x ⟨o, s⟩)
    (hsub : ∀ u' ∈ s', ∃ u ∈ s, u'.amountTotal = u.amountTotal ∧ u'.amountUsed ≤ u'.amountTotal) :
    Books plan id x ⟨o.withState c, s'⟩ := by
  by_cases hfst : o.currentPeriodEnd = 0 ∧ 0 < c.periodEnd
  · have hend : (o.withState c).currentPeriodEnd = c.periodEnd := if_pos hfst
    refine h.granted rfl (.inr ?_) (fun hn => hn) fun u' hu' => ?_
    · show o.currentPeriodEnd < (o.withState c).currentPeriodEnd
      rw [hend, hfst.1]
      exact hfst.2
    · obtain ⟨u, hu, htot, hud⟩ := hsub u' hu'
      exact ⟨htot.trans (h.total_eq (.inl hfst.1.le) u hu), hud⟩
  · exact h.congr rfl rfl (if_neg hfst) hsub

theorem state {c : StateChange} (heff : StateEffect env c a a') : Books plan id x a' := by
  cases heff with
  | stale => exact h
  | stored => exact h.withState c fun u hu => ⟨u, hu, rfl, h.used u hu⟩
  | @cancelled _ sub =>
    refine h.withState c ?_
    rintro u ⟨⟩
    exact ⟨sub, rfl, rfl, h.used sub rfl⟩

/-- A refund that takes back nothing. -/
theorem refund_none (hr : row.quotaRevoked = 0) :
    Books plan id { x with refunds := x.refunds.insert row } a := by
  have hsa : ∀ pid, ({ x with refunds := x.refunds.insert row } : Receipts).revoked pid =
      x.revoked pid := by
    intro pid
    rw [Receipts.revoked_insert, hr, ite_self, add_zero]
  refine ⟨h.frozen, h.unique, ?_, ?_, h.fresh, h.used⟩
  · intro pid p hp hord hc
    rw [hsa]
    exact h.early pid p hp hord hc
  · intro pid p hp hord hend s hs
    rw [hsa]
    exact h.current pid p hp hord hend s hs

theorem refund {p : PaymentEvent} {refunded : ℤ}
    (hp : x.payments.get? pid = some p) (hord : p.orderId = id) (hpid : row.paymentEventId = pid)
    (heff : QuotaEffect env p refunded row.quotaRevoked a a') :
    Books plan id { x with refunds := x.refunds.insert row } a' := by
  cases heff with
  | none hquo => exact h.refund_none hquo
  | @revoked _ _ s plan' hfro hcur hper ho' hquo =>
    obtain rfl : plan = plan' := Snapshot.frozen.inj (h.frozen.symm.trans hfro)
    subst ho' hpid
    obtain ⟨hsid, -, hend⟩ := hcur
    have hpos : 0 < p.periodEnd := hper.1.trans hper.2
    have hmis := h.current _ p hp hord hend.symm s rfl
    refine ⟨h.frozen, h.unique, ?_, ?_, fun hn => absurd hend.symm (hn _ p hp hord), ?_⟩
    · intro j q hq hqo hc
      rw [Receipts.revoked_insert, if_neg, add_zero]
      · exact h.early j q hq hqo hc
      · -- the refunded payment is that of the current period
        rintro rfl
        obtain rfl := mem_unique hp hq
        rcases hc with hn | hlate | hnull
        · exact hsid.ne' hn
        · exact hlate.ne hend
        · exact hpos.not_ge hnull
    · rintro j q hq hqo hqend t ⟨⟩
      have hjend : q.periodEnd = p.periodEnd := hqend.trans hend
      obtain ⟨hperi, hsndp⟩ := period_of_end hpos.ne'
      obtain ⟨-, hsndq⟩ := period_of_end (hjend ▸ hpos.ne')
      obtain rfl := h.unique _ j p q hp hq hord hqo hperi (by rw [hsndp, hsndq, hjend])
      rw [Receipts.revoked_insert, if_pos rfl, hmis, hquo]
      ring
    · rintro t ⟨⟩
      exact revokedSubscription_covers (h.used s rfl)

end

end Books

/-! ## Steps -/

/-- What others leave of the order: they may use its quota within the total, and record payments and
refunds of other orders. -/
structure OthersKeepReceipts (tradeNo : String) (id : ℕ) (db db' : Db) : Prop where
  next : db.subscriptions.next ≤ db'.subscriptions.next
  order : db'.findOrder tradeNo = db.findOrder tradeNo
  quota : ∀ a ∈ db.account tradeNo, ∀ s' ∈ (db'.accountOf a.order).sub, ∃ s ∈ a.sub,
    s'.amountTotal = s.amountTotal ∧ (s.amountUsed ≤ s.amountTotal → s'.amountUsed ≤ s'.amountTotal)
  payments : ∀ pid p, p.orderId = id →
    (db'.paymentEvents.get? pid = some p ↔ db.paymentEvents.get? pid = some p)
  refunds : ∀ i r, db.refunds.get? i = some r → db'.refunds.get? i = some r
  sums : ∀ pid p, db.paymentEvents.get? pid = some p → p.orderId = id →
    db'.receipts.refunded pid = db.receipts.refunded pid ∧
      db'.receipts.revoked pid = db.receipts.revoked pid
  known : ∀ i r, db'.refunds.get? i = some r → r.paymentEventId < db'.paymentEvents.next

/-- The steps in question: the refunds are of payments of the order. -/
def AccountStep.Permitted (tradeNo : String) (id : ℕ) : AccountStep → Db → Prop
  | .event _ _, _ => True
  | .state _ _, _ => True
  | .refund _ r, _ => r.trimmed.tradeNo = tradeNo
  | .other db', db => OthersKeepReceipts tradeNo id db db'

/-- The order is there, and its payments are not refunded beyond their amounts. -/
structure Db.Tracks (db : Db) (tradeNo : String) (id : ℕ) : Prop where
  next : 0 < db.subscriptions.next
  found : ∃ order, db.findOrder tradeNo = some (id, order)
  paid : db.receipts.Paid id

/-- The books of the order are in order. -/
def Db.Balanced (db : Db) (tradeNo : String) (id : ℕ) (plan : Plan) : Prop :=
  ∃ a, db.account tradeNo = some a ∧ Books plan id db.receipts a

/-- What a step keeps. -/
structure StepKeeps (tradeNo : String) (id : ℕ) (db db' : Db) : Prop where
  tracks : db'.Tracks tradeNo id
  booked : ∀ provider event, db.receipts.Booked provider event → db'.receipts.Booked provider event
  balanced : ∀ plan : Plan, 0 < plan.totalAmount → db.Balanced tradeNo id plan →
    db'.Balanced tradeNo id plan

theorem StepKeeps.refl (h : db.Tracks tradeNo id) : StepKeeps tradeNo id db db :=
  ⟨h, fun _ _ h => h, fun _ _ h => h⟩

theorem StepKeeps.trans {db'' : Db} (h : StepKeeps tradeNo id db db')
    (h' : StepKeeps tradeNo id db' db'') : StepKeeps tradeNo id db db'' where
  tracks := h'.tracks
  booked provider event hbk := h'.booked _ _ (h.booked provider event hbk)
  balanced plan hfin hbal := h'.balanced plan hfin (h.balanced plan hfin hbal)

namespace AccountStep

theorem event_keeps (env : Env) (e : LifecycleEvent) (h : db.Tracks tradeNo id) :
    StepKeeps tradeNo id db ((AccountStep.event env e).exec tradeNo db) := by
  obtain ⟨_, hf⟩ := h.found
  rw [exec]
  cases hrun : recordWaffoPancakeSubscriptionEvent env tradeNo e db with
  | error => exact .refl h
  | ok =>
    obtain ⟨hle, hgr, hf', a', hacc', heff⟩ :=
      recordWaffoPancakeSubscriptionEvent_effect hf h.next hrun
    refine ⟨⟨h.next.trans_le hle, hf', h.paid.grow hgr⟩, fun provider event hbk => ?_, ?_⟩
    · rcases hgr with heq | ⟨_, -, -, heq, -⟩
      · exact heq ▸ hbk
      · exact heq ▸ hbk
    · rintro plan hfin ⟨a, hacc, hboo⟩
      obtain rfl := mem_unique (db.account_of_findOrder hf) hacc
      exact ⟨a', hacc', (hboo.grow h.paid hgr).event hfin heff⟩

theorem state_keeps (env : Env) (c : StateChange) (h : db.Tracks tradeNo id) :
    StepKeeps tradeNo id db ((state env c).exec tradeNo db) := by
  obtain ⟨_, hf⟩ := h.found
  rw [exec]
  cases hrun : updateSubscriptionProviderState env tradeNo c db with
  | error => exact .refl h
  | ok =>
    obtain ⟨hn, ⟨hrcs, hf'⟩, a', hacc', heff⟩ := updateSubscriptionProviderState_effect hf hrun
    refine ⟨⟨hn.symm ▸ h.next, hf', hrcs.symm ▸ h.paid⟩,
      fun provider event hbk => hrcs.symm ▸ hbk, ?_⟩
    rintro plan - ⟨a, hacc, hboo⟩
    obtain rfl := mem_unique (db.account_of_findOrder hf) hacc
    exact ⟨a', hacc', hrcs.symm ▸ hboo.state heff⟩

theorem refund_keeps (env : Env) {r : RefundRequest} (htra : r.trimmed.tradeNo = tradeNo)
    (h : db.Tracks tradeNo id) :
    StepKeeps tradeNo id db ((refund env r).exec tradeNo db) := by
  obtain ⟨_, hf⟩ := h.found
  rw [exec]
  cases hrun : applySubscriptionPaymentRefund env r db with
  | error => exact .refl h
  | ok out =>
    obtain ⟨hn, _, p, hpay, hout, -⟩ := applySubscriptionPaymentRefund_outcome hf htra hrun
    obtain ⟨hp, hord, -⟩ := first?_eq_some hpay
    cases hout with
    | replayed _ hdb =>
      rw [commit, hdb]
      exact .refl h
    | applied _ _ a' _ hle hpid hamt _ _ hrcs hf' ha ha' heff =>
      refine ⟨⟨hn.symm ▸ h.next, hf', ?_⟩, fun provider event hbk => ?_, ?_⟩
      · show Receipts.Paid id out.2.receipts
        rw [hrcs]
        exact h.paid.refund hp hpid (hamt ▸ hle)
      · obtain ⟨i, q, hq, hmat⟩ := any_iff.1 hbk
        show out.2.receipts.Booked provider event
        rw [hrcs]
        exact any_iff.2 ⟨i, q, get?_insert_of_get? hq, hmat⟩
      · rintro plan - ⟨b, hb, hboo⟩
        obtain rfl := mem_unique ha hb
        refine ⟨a', ha', ?_⟩
        show Books plan id out.2.receipts a'
        rw [hrcs]
        exact hboo.refund hp hord hpid heff

theorem other_keeps (hok : OthersKeepReceipts tradeNo id db db') (h : db.Tracks tradeNo id) :
    StepKeeps tradeNo id db db' := by
  obtain ⟨order, hf⟩ := h.found
  have hg : ∀ {pid p}, db'.receipts.payments.get? pid = some p → p.orderId = id →
      db.receipts.payments.get? pid = some p := fun hp hord => (hok.payments _ _ hord).1 hp
  have hf' : db'.findOrder tradeNo = some (id, order) := hok.order.trans hf
  refine ⟨⟨h.next.trans_le hok.next, ⟨order, hf'⟩, ?_, hok.known⟩, fun provider event hbk => ?_, ?_⟩
  · intro pid p hp hord
    rw [(hok.sums pid p (hg hp hord) hord).1]
    exact h.paid.le pid p (hg hp hord) hord
  · obtain ⟨i, q, hq, hmat⟩ := any_iff.1 hbk
    exact any_iff.2 ⟨i, q, hok.refunds i q hq, hmat⟩
  · rintro plan - ⟨a, hacc, hboo⟩
    obtain rfl := mem_unique (db.account_of_findOrder hf) hacc
    refine ⟨_, db'.account_of_findOrder hf', ?_⟩
    have hquo := hok.quota _ (db.account_of_findOrder hf)
    have hsa : Books plan id db.receipts (db'.accountOf order) := by
      refine hboo.congr rfl rfl rfl fun s' hs' => ?_
      obtain ⟨s, hs, htot, hud⟩ := hquo s' hs'
      exact ⟨s, hs, htot, hud (hboo.used s hs)⟩
    refine ⟨hsa.frozen, ?_, ?_, ?_, ?_, hsa.used⟩
    · intro i j p q hp hq hpo hqo
      exact hsa.unique i j p q (hg hp hpo) (hg hq hqo) hpo hqo
    · intro pid p hp hord hc
      rw [(hok.sums pid p (hg hp hord) hord).2]
      exact hsa.early pid p (hg hp hord) hord hc
    · intro pid p hp hord hend s hs
      rw [(hok.sums pid p (hg hp hord) hord).2]
      exact hsa.current pid p (hg hp hord) hord hend s hs
    · intro hn s hs
      refine hsa.fresh (fun pid p hp hord => ?_) s hs
      exact hn pid p ((hok.payments pid p hord).2 hp) hord

/-- **What every step keeps.** -/
theorem keeps {i : AccountStep} (hok : i.Permitted tradeNo id db) (h : db.Tracks tradeNo id) :
    StepKeeps tradeNo id db (i.exec tradeNo db) := by
  cases i with
  | event env e => exact event_keeps env e h
  | state env c => exact state_keeps env c h
  | refund env => exact refund_keeps env hok h
  | other => exact other_keeps hok h

end AccountStep

/-! ## Runs -/

theorem keeps_run {steps : List AccountStep} (h : db.Tracks tradeNo id)
    (hss : Along (exec tradeNo) (AccountStep.Permitted tradeNo id) db steps) :
    StepKeeps tradeNo id db (run (exec tradeNo) db steps) := by
  induction steps generalizing db with
  | nil => exact .refl h
  | cons i _ ih =>
    have hs := i.keeps hss.1 h
    exact hs.trans (ih hs.tracks hss.2)

section

variable {r : RefundRequest} (htra : r.trimmed.tradeNo = tradeNo)
  (hf : db.findOrder tradeNo = some (id, order))
include htra hf

/-- A request with the event of a refund that is booked changes nothing. -/
theorem refund_of_booked
    (hbk : db.receipts.Booked r.trimmed.paymentProvider r.trimmed.providerEventId) :
    (AccountStep.refund env r).exec tradeNo db = db := by
  refine commit_rule (P := (· = db)) ?_ rfl
  rintro out hrun
  obtain ⟨-, _, p, -, hout, -⟩ := applySubscriptionPaymentRefund_outcome hf htra hrun
  cases hout with
  | replayed _ hdb => exact hdb
  | applied _ _ _ hfr => exact absurd hbk hfr

/-- The event of an accepted request is booked. -/
theorem booked_of_accepted {out : Recharge.RefundResult × Db}
    (hrun : applySubscriptionPaymentRefund env r db = .ok out) :
    out.2.receipts.Booked r.trimmed.paymentProvider r.trimmed.providerEventId := by
  obtain ⟨-, _, p, -, hout, -⟩ := applySubscriptionPaymentRefund_outcome hf htra hrun
  cases hout with
  | replayed hbk hdb => exact hdb ▸ hbk
  | applied row _ _ _ _ _ _ hpv hev hrcs =>
    rw [hrcs]
    exact any_iff.2 ⟨_, row, get?_insert_self _ _, hpv, hev⟩

omit hf in
/-- A refund leaves the quota that was used, whatever the plan. -/
theorem refund_covers {a a' : Account}
    (hn : 0 < db.subscriptions.next) (ha : db.account tradeNo = some a)
    (ha' : ((AccountStep.refund env r).exec tradeNo db).account tradeNo = some a')
    (hcov : ∀ s ∈ a.sub, s.amountUsed ≤ s.amountTotal) :
    ∀ s ∈ a'.sub, s.amountUsed ≤ s.amountTotal := by
  obtain ⟨-, b, hb, heff⟩ := exec_effect (i := .refund env r) htra ha hn
  obtain rfl := mem_unique hb ha'
  rcases heff with rfl | heff
  · exact hcov
  · cases heff with
    | booked => exact hcov
    | @revoked _ sub =>
      rintro s ⟨⟩
      exact revokedSubscription_covers (hcov sub rfl)

end

/-- **Refunds of recurring payments are isolated.** From an order without payments, along any run of
events, states and refunds of the order, with use of its quota and anything about other orders in
between:

* no payment is refunded beyond its amount;
* a request with the event of an accepted one changes nothing;
* a request for a payment whose period is not the current one leaves the order and the subscription as
  they are;
* a refund keeps the total at least the use;
* for a finite plan, the total is at least the use, and what was taken back for the payment of the
  current period is what is missing of the quota of the plan. -/
theorem payment_refunds_isolated {steps : List AccountStep} (hnext : 0 < db.subscriptions.next)
    (hfound : db.findOrder tradeNo = some (id, order)) (hnew : order.userSubscriptionId = 0)
    (hnone : ∀ pid p, db.paymentEvents.get? pid = some p → p.orderId ≠ id)
    (hknown : ∀ i r, db.refunds.get? i = some r → r.paymentEventId < db.paymentEvents.next)
    (hsteps : Along (AccountStep.exec tradeNo) (AccountStep.Permitted tradeNo id) db steps) :
    (∀ pid p, (run (AccountStep.exec tradeNo) db steps).paymentEvents.get? pid = some p →
      p.orderId = id →
      (run (AccountStep.exec tradeNo) db steps).receipts.refunded pid ≤ p.settlementAmountMicros) ∧
    (∀ before env r middle env' r' after,
      steps = before ++ .refund env r :: (middle ++ .refund env' r' :: after) →
      (∃ out, applySubscriptionPaymentRefund env r (run (AccountStep.exec tradeNo) db before) =
        .ok out) →
      r'.trimmed.paymentProvider = r.trimmed.paymentProvider →
      r'.trimmed.providerEventId = r.trimmed.providerEventId →
      (AccountStep.refund env' r').exec tradeNo
          (run (AccountStep.exec tradeNo) db (before ++ .refund env r :: middle)) =
        run (AccountStep.exec tradeNo) db (before ++ .refund env r :: middle)) ∧
    (∀ before env r after, steps = before ++ .refund env r :: after →
      ∀ order' pid p, (run (AccountStep.exec tradeNo) db before).findOrder tradeNo =
          some (id, order') →
        (run (AccountStep.exec tradeNo) db before).paymentFor id r.trimmed = some (pid, p) →
        ¬order'.CurrentPayment p →
        ((AccountStep.refund env r).exec tradeNo
            (run (AccountStep.exec tradeNo) db before)).account tradeNo =
          (run (AccountStep.exec tradeNo) db before).account tradeNo) ∧
    (∀ before env r after, steps = before ++ .refund env r :: after →
      ∀ a a', (run (AccountStep.exec tradeNo) db before).account tradeNo = some a →
        ((AccountStep.refund env r).exec tradeNo
            (run (AccountStep.exec tradeNo) db before)).account tradeNo = some a' →
        (∀ s ∈ a.sub, s.amountUsed ≤ s.amountTotal) → ∀ s ∈ a'.sub, s.amountUsed ≤ s.amountTotal) ∧
    ∀ plan, order.planSnapshot = .frozen plan → 0 < plan.totalAmount →
      ∀ o s, (run (AccountStep.exec tradeNo) db steps).account tradeNo = some ⟨o, some s⟩ →
        s.amountUsed ≤ s.amountTotal ∧
        ∀ pid p, (run (AccountStep.exec tradeNo) db steps).paymentEvents.get? pid = some p →
          p.orderId = id → o.CurrentPayment p →
          (run (AccountStep.exec tradeNo) db steps).receipts.revoked pid =
            plan.totalAmount - s.amountTotal := by
  have hstart : db.Tracks tradeNo id :=
    ⟨hnext, ⟨order, hfound⟩, fun pid p hp horder => absurd horder (hnone pid p hp), hknown⟩
  have hend := keeps_run hstart hsteps
  have hbefore {before after : List AccountStep} {i : AccountStep}
      (heq : steps = before ++ i :: after) :
      (run (exec tradeNo) db before).Tracks tradeNo id ∧
        i.Permitted tradeNo id (run (exec tradeNo) db before) := by
    rw [heq] at hsteps
    obtain ⟨hfirst, hstep, -⟩ := along_append.1 hsteps
    exact ⟨(keeps_run hstart hfirst).tracks, hstep⟩
  refine ⟨hend.tracks.paid.le, ?_, ?_, ?_, ?_⟩
  · rintro before env r middle env' r' after rfl ⟨out, hrun⟩ hprovider hevent
    obtain ⟨hfirst, htrade, hrest⟩ := along_append.1 hsteps
    have hnow := (keeps_run hstart hfirst).tracks
    have hexec : (AccountStep.refund env r).exec tradeNo (run (exec tradeNo) db before) =
        out.2 := by
      rw [exec, hrun]
      rfl
    have hstep := AccountStep.keeps htrade hnow
    rw [hexec] at hrest hstep
    obtain ⟨hmiddle, htrade', -⟩ := along_append.1 hrest
    have hthen := keeps_run hstep.tracks hmiddle
    have hstate : run (exec tradeNo) db (before ++ .refund env r :: middle) =
        run (exec tradeNo) out.2 middle := by
      rw [← hexec]
      exact List.foldl_append
    rw [hstate]
    -- the event is booked by the accepted request, and stays so until it is repeated
    obtain ⟨o, ho⟩ := hnow.found
    obtain ⟨o', ho'⟩ := hthen.tracks.found
    refine refund_of_booked htrade' ho' ?_
    rw [hprovider, hevent]
    exact hthen.booked _ _ (booked_of_accepted htrade ho hrun)
  · intro before env r after heq order' pid p horder hpayment hcurrent
    obtain ⟨-, htrade⟩ := hbefore heq
    rw [exec]
    cases hrun : applySubscriptionPaymentRefund env r (run (exec tradeNo) db before) with
    | error => rfl
    | ok =>
      obtain ⟨-, _, p', hpayment', -, hkept⟩ :=
        applySubscriptionPaymentRefund_outcome horder htrade hrun
      obtain ⟨⟩ := mem_unique hpayment hpayment'
      exact hkept hcurrent
  · intro before env r after heq a a' ha ha' hcovers
    obtain ⟨hnow, htrade⟩ := hbefore heq
    exact refund_covers htrade hnow.next ha ha' hcovers
  · intro plan hfrozen hfinite o s haccount
    have hbalanced : db.Balanced tradeNo id plan := by
      refine ⟨_, db.account_of_findOrder hfound, hfrozen, ?_, ?_, ?_, ?_, ?_⟩
      · intro i j p q hp hq hpo
        exact absurd hpo (hnone i p hp)
      · intro pid p hp horder
        exact absurd horder (hnone pid p hp)
      · intro pid p hp horder
        exact absurd horder (hnone pid p hp)
      · intro _ s hs
        rw [Db.accountOf, if_pos hnew] at hs
        cases hs
      · intro s hs
        rw [Db.accountOf, if_pos hnew] at hs
        cases hs
    obtain ⟨a, ha, hbooks⟩ := hend.balanced plan hfinite hbalanced
    obtain rfl := mem_unique ha haccount
    refine ⟨hbooks.used s rfl, fun pid p hp horder hcurrent => ?_⟩
    exact hbooks.current pid p hp horder hcurrent.2.2.symm s rfl

/-! ### A month that is refunded in part -/

/-- Two fifths of the month are refunded, and the request is repeated. -/
def partialRefundSteps : List AccountStep :=
  [.event (sampleEnv 1100) paidMonth,
    .refund (sampleEnv 1200) { fullRefund with amountMicros := 2000000 },
    .refund (sampleEnv 1300) { fullRefund with amountMicros := 2000000 }]

theorem payment_refunds_isolated_month :
    ∃ o s, (run (AccountStep.exec "T1") sampleDb partialRefundSteps).account "T1" =
        some ⟨o, some s⟩ ∧ s.amountTotal = 600 ∧
      (run (AccountStep.exec "T1") sampleDb partialRefundSteps).receipts.refunded 1 = 2000000 ∧
      (run (AccountStep.exec "T1") sampleDb partialRefundSteps).receipts.revoked 1 = 400 := by
  have hsteps : Along (exec "T1") (AccountStep.Permitted "T1" 1) sampleDb partialRefundSteps :=
    ⟨trivial, (by decide +kernel : _ = _), (by decide +kernel : _ = _), trivial⟩
  obtain ⟨o, s, haccount, -, -, htotal⟩ := summary_eq_some
    (show summary "T1" (run (exec "T1") sampleDb partialRefundSteps) = some (2000, .active, 600) by
      decide +kernel)
  obtain ⟨p, hp, horder, hcurrent⟩ :
      ∃ x ∈ (run (exec "T1") sampleDb partialRefundSteps).paymentEvents.get? 1,
        x.orderId = 1 ∧ ∀ a ∈ (run (exec "T1") sampleDb partialRefundSteps).account "T1",
          a.order.CurrentPayment x := by decide +kernel
  obtain ⟨-, -, -, -, hbooks⟩ := payment_refunds_isolated (by decide)
    (show sampleDb.findOrder "T1" = some (1, sampleOrder) by decide +kernel) rfl
    (fun pid p hp => nomatch hp) (fun i r hr => nomatch hr) hsteps
  have hrevoked := (hbooks samplePlan rfl (by decide) o s haccount).2 1 p hp horder
    (hcurrent _ haccount)
  refine ⟨o, s, haccount, htotal, by decide +kernel, ?_⟩
  rw [hrevoked, htotal]
  rfl

end LmmApi.Recurring
