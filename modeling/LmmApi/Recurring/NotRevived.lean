import LmmApi.Recurring.Account
import LmmApi.Recurring.PaymentOrder

/-!
# Refunded subscriptions

A full refund of the current period lowers the quota of the subscription to what was used, which may
be zero, and cancels it. Zero quota is unlimited quota, so a subscription must not become active
again with it. A `subscription.recovered` event for the same period makes it active without a look
at the refunds, and this is the only way: in the runs in which no such event meets a cancelled
subscription, a cancelled subscription becomes active again only with a later period, and an active
one has quota.

The invariants are `Account.Sound`, which a run keeps from the start, and `Account.Revoked`, which
it keeps from the cancellation on.
-/

namespace LmmApi.Recurring

open Guarded Attribution List Option AccountStep

variable {env : Env} {db db' : Db} {tradeNo : String} {plan : Plan} {a a' : Account}

/-! ## Runs -/

/-- The event would make a cancelled subscription active in the period that it was cancelled in. -/
def Revives (tradeNo : String) (e : LifecycleEvent) (db : Db) : Prop :=
  ∃ a ∈ db.account tradeNo, ∃ s ∈ a.sub, s.status = .cancelled ∧ e.eventType = lifecycleRecovered ∧
    a.order.currentPeriodEnd = e.periodEnd ∧ ¬a.order.Ignores e
  deriving Decidable

/-- What others leave of the account: they may use quota, reset it or end the subscription, but they
give it no other quota, and a cancelled subscription stays cancelled. -/
structure OthersKeep (tradeNo : String) (db db' : Db) : Prop where
  next : db.subscriptions.next ≤ db'.subscriptions.next
  none : ∀ o, db.account tradeNo = some ⟨o, none⟩ → db'.account tradeNo = some ⟨o, none⟩
  some : ∀ o s, db.account tradeNo = some ⟨o, some s⟩ →
    ∃ s', db'.account tradeNo = some ⟨o, some s'⟩ ∧ s'.amountTotal = s.amountTotal ∧
      0 ≤ s'.amountUsed ∧ (s.status = .cancelled → s'.status = .cancelled)

/-- The steps of the runs in question. -/
def AccountStep.Admissible (tradeNo : String) : AccountStep → Db → Prop
  | .event _ e, db => ¬Revives tradeNo e db
  | .state _ _, _ => True
  | .refund _ r, _ => r.trimmed.tradeNo = tradeNo
  | .other db', db => OthersKeep tradeNo db db'

/-! ## Invariants -/

/-- An account with the frozen plan, and with quota unless the subscription is cancelled. -/
structure Account.Sound (plan : Plan) (a : Account) : Prop where
  plan : a.order.planSnapshot = .frozen plan
  used : ∀ s ∈ a.sub, 0 ≤ s.amountUsed
  quota : ∀ s ∈ a.sub, s.status ≠ .cancelled → 0 < s.amountTotal

/-- The subscription is cancelled, unless the period is later than `last` and one of the events
`seen` has granted it. -/
structure Account.Revoked (last : ℤ) (seen : List LifecycleEvent) (a : Account) : Prop where
  period : last ≤ a.order.currentPeriodEnd
  cancelled : (∃ s ∈ a.sub, s.status = .cancelled ∧ a.order.userSubscriptionId ≠ 0) ∨
    (last < a.order.currentPeriodEnd ∧ ∃ e ∈ seen, last < e.periodEnd)

/-- The event is for a subscription that is not cancelled, if it recovers one. -/
def Account.NotRevived (e : LifecycleEvent) (a : Account) : Prop :=
  ∀ s ∈ a.sub, s.status = .cancelled → e.eventType = lifecycleRecovered →
    a.order.currentPeriodEnd = e.periodEnd → a.order.Ignores e

variable {e : LifecycleEvent} {payment : PaymentEvent} {refunded : ℤ} {s : UserSubscription}
  {i : AccountStep} {steps : List AccountStep}

theorem Account.Sound.event (h : a.Sound plan) (hpl : 0 < plan.totalAmount)
    (heff : EventEffect env e a a') (hrev : a.NotRevived e) : a'.Sound plan := by
  cases heff with
  | money hacs | ignored hacs | known hacs =>
    exact ⟨(access_planSnapshot hacs).trans h.plan, h.used, h.quota⟩
  | granted hacs _ _ hfro =>
    obtain rfl : plan = _ := Snapshot.frozen.inj (h.plan.symm.trans hfro)
    refine ⟨(access_planSnapshot hacs).trans h.plan, ?_, ?_⟩
    · rintro s ⟨⟩
      simp only [withPeriodStatus_kept]
      exact le_rfl
    · rintro s ⟨⟩ -
      simp only [withPeriodStatus_kept]
      exact hpl
  | @recovered _ _ sub hacs hign hty hend =>
    have hst : sub.status ≠ .cancelled := fun hc => hign (hrev sub rfl hc hty hend)
    refine ⟨(access_planSnapshot hacs).trans h.plan, ?_, ?_⟩
    · rintro s ⟨⟩
      simp only [withPeriodStatus_kept]
      exact h.used sub rfl
    · rintro s ⟨⟩ -
      simp only [withPeriodStatus_kept]
      exact h.quota sub rfl hst

theorem Account.Sound.state {c : StateChange} (h : a.Sound plan) (heff : StateEffect env c a a') :
    a'.Sound plan := by
  cases heff with
  | stale => exact h
  | stored => exact ⟨h.plan, h.used, h.quota⟩
  | @cancelled _ sub =>
    refine ⟨h.plan, ?_, ?_⟩
    · rintro s ⟨⟩
      exact h.used sub rfl
    · rintro s ⟨⟩ hne
      exact absurd rfl hne

/-- A refund leaves quota or cancels. -/
theorem revokedSubscription_amountTotal_pos (hpl : 0 < plan.totalAmount) (hud : 0 ≤ s.amountUsed)
    (hst : (revokedSubscription env plan payment refunded s).status ≠ .cancelled) :
    0 < (revokedSubscription env plan payment refunded s).amountTotal := by
  unfold revokedSubscription at hst ⊢
  simp only [] at hst ⊢
  split at hst
  · exact absurd rfl hst
  · rename_i hleft
    rw [if_neg hleft]
    have hlt : ¬remainingTotal env plan payment refunded s ≤ s.amountUsed := fun hle =>
      hleft (.inr ⟨hpl, hle⟩)
    show 0 < remainingTotal env plan payment refunded s
    omega

theorem revokedSubscription_amountUsed (payment : PaymentEvent) (refunded : ℤ)
    (s : UserSubscription) :
    (revokedSubscription env plan payment refunded s).amountUsed = s.amountUsed := by
  unfold revokedSubscription
  simp only []
  split <;> rfl

theorem revokedSubscription_status (h : s.status = .cancelled) :
    (revokedSubscription env plan payment refunded s).status = .cancelled := by
  unfold revokedSubscription
  simp only []
  split
  · rfl
  · exact h

theorem Account.Sound.refund (h : a.Sound plan) (hpl : 0 < plan.totalAmount)
    (heff : RefundEffect env a a') : a'.Sound plan := by
  cases heff with
  | booked => exact h
  | @revoked _ sub plan' _ _ _ hfro =>
    obtain rfl : plan = plan' := Snapshot.frozen.inj (h.plan.symm.trans hfro)
    refine ⟨h.plan, ?_, ?_⟩
    · rintro s ⟨⟩
      rw [revokedSubscription_amountUsed]
      exact h.used sub rfl
    · rintro s ⟨⟩ hst
      exact revokedSubscription_amountTotal_pos hpl (h.used sub rfl) hst

variable {last : ℤ} {seen : List LifecycleEvent}

namespace Account.Revoked

section

variable (h : a.Revoked last seen)
include h

theorem mono (new : List LifecycleEvent) : a.Revoked last (seen ++ new) := by
  refine ⟨h.period, h.cancelled.imp_right ?_⟩
  rintro ⟨hlt, e, he, hlate⟩
  exact ⟨hlt, e, mem_append_left new he, hlate⟩

theorem event {e : LifecycleEvent} (heff : EventEffect env e a a')
    (hrev : a.NotRevived e) {d : LifecycleEvent} (hd : d.periodEnd = e.periodEnd) :
    a'.Revoked last (seen ++ [d]) := by
  have hd' : d ∈ seen ++ [d] := mem_append_right seen (mem_singleton_self d)
  cases heff with
  | money hacs | ignored hacs | known hacs =>
    have hkt := h.mono [d]
    refine ⟨(access_currentPeriodEnd hacs).symm ▸ hkt.period, ?_⟩
    rw [access_currentPeriodEnd hacs, access_userSubscriptionId hacs]
    exact hkt.cancelled
  | @granted o _ _ _ _ _ _ _ hign _ hnew =>
    have hle : o.currentPeriodEnd ≤ e.periodEnd := not_lt.1 fun hlt => hign (.inr (.inr hlt))
    have hlt : last < e.periodEnd := by
      rcases h.cancelled with ⟨_, -, -, hne⟩ | ⟨hlt, -⟩
      · exact h.period.trans_lt (hnew.resolve_left hne)
      · exact hlt.trans_le hle
    exact ⟨hlt.le, .inr ⟨hlt, d, hd', hd ▸ hlt⟩⟩
  | @recovered _ _ sub _ hign hty hend =>
    rcases h.cancelled with ⟨s, ⟨⟩, hst, -⟩ | ⟨hlt, -⟩
    · exact absurd (hrev sub rfl hst hty hend) hign
    · have hlt' : last < e.periodEnd := hend ▸ hlt
      exact ⟨hlt'.le, .inr ⟨hlt', d, hd', hd ▸ hlt'⟩⟩

theorem state {c : StateChange} (heff : StateEffect env c a a') : a'.Revoked last seen := by
  have hper (o : Order) : o.currentPeriodEnd ≤ (o.withState c).currentPeriodEnd := by
    simp only [Order.withState]
    split <;> omega
  cases heff with
  | stale => exact h
  | @stored o =>
    refine ⟨h.period.trans (hper o), h.cancelled.imp_right ?_⟩
    exact fun hlate => ⟨hlate.1.trans_le (hper o), hlate.2⟩
  | @cancelled o =>
    refine ⟨h.period.trans (hper o), ?_⟩
    rcases h.cancelled with ⟨s, -, -, hne⟩ | hlate
    · exact .inl ⟨_, rfl, rfl, hne⟩
    · exact .inr ⟨hlate.1.trans_le (hper o), hlate.2⟩

theorem refund (heff : RefundEffect env a a') : a'.Revoked last seen := by
  cases heff with
  | booked => exact h
  | revoked =>
    refine ⟨h.period, ?_⟩
    rcases h.cancelled with ⟨s, ⟨⟩, hst, hne⟩ | hlate
    · exact .inl ⟨_, rfl, revokedSubscription_status hst, hne⟩
    · exact .inr hlate

end

end Account.Revoked

/-! ## Steps -/

/-- What a step can do to an account. -/
inductive AccountStep.Moves (tradeNo : String) (db : Db) : AccountStep → Account → Account → Prop
  | refused {i : AccountStep} {a : Account} : Moves tradeNo db i a a
  | event {env : Env} {e : LifecycleEvent} {a a' : Account}
      (h : EventEffect env e a a') : Moves tradeNo db (.event env e) a a'
  | state {env : Env} {c : StateChange} {a a' : Account} (h : StateEffect env c a a') :
      Moves tradeNo db (.state env c) a a'
  | refund {env : Env} {r : RefundRequest} {a a' : Account} (h : RefundEffect env a a') :
      Moves tradeNo db (.refund env r) a a'
  | other {db' : Db} {o : Order} {s s' : UserSubscription} (htotal : s'.amountTotal = s.amountTotal)
      (hused : 0 ≤ s'.amountUsed) (hstatus : s.status = .cancelled → s'.status = .cancelled) :
      Moves tradeNo db (.other db') ⟨o, some s⟩ ⟨o, some s'⟩

/-- Every step moves the account. -/
theorem AccountStep.moves (hok : i.Admissible tradeNo db)
    (hacc : db.account tradeNo = some a) (hn : 0 < db.subscriptions.next) :
    0 < (i.exec tradeNo db).subscriptions.next ∧
      ∃ a', (i.exec tradeNo db).account tradeNo = some a' ∧ i.Moves tradeNo db a a' := by
  by_cases hab : i.About tradeNo
  · obtain ⟨hn', a', hacc', heff⟩ := exec_effect hab hacc hn
    refine ⟨hn', a', hacc', ?_⟩
    rcases heff with rfl | heff
    · exact .refused
    · cases i with
      | event => exact .event heff
      | state => exact .state heff
      | refund => exact .refund heff
      | other => exact hab.elim
  · cases i with
    | event | state => exact absurd trivial hab
    | refund => exact absurd hok hab
    | other =>
      refine ⟨hn.trans_le hok.next, ?_⟩
      obtain ⟨o, s⟩ := a
      cases s with
      | none => exact ⟨_, hok.none o hacc, .refused⟩
      | some s =>
        obtain ⟨s', hacc', htot, hud, hst⟩ := hok.some o s hacc
        exact ⟨_, hacc', .other htot hud hst⟩

/-- An admissible event revives nothing. -/
theorem notRevived_of_admissible (hok : (AccountStep.event env e).Admissible tradeNo db)
    (hacc : db.account tradeNo = some a) : a.NotRevived e := by
  intro s hs hst hty hend
  by_contra hign
  exact hok ⟨a, hacc, s, hs, hst, hty, hend, hign⟩

section

variable (h : i.Moves tradeNo db a a') (hok : i.Admissible tradeNo db)
  (hacc : db.account tradeNo = some a)
include h hok hacc

theorem AccountStep.Moves.sound
    (hpl : 0 < plan.totalAmount) (hsnd : a.Sound plan) : a'.Sound plan := by
  cases h with
  | refused => exact hsnd
  | event heff => exact hsnd.event hpl heff (notRevived_of_admissible hok hacc)
  | state heff => exact hsnd.state heff
  | refund heff => exact hsnd.refund hpl heff
  | @other _ _ s _ htot hud hst =>
    refine ⟨hsnd.plan, ?_, ?_⟩
    · rintro t ⟨⟩
      exact hud
    · rintro t ⟨⟩ hne
      rw [htot]
      exact hsnd.quota s rfl fun hc => hne (hst hc)

theorem AccountStep.Moves.revoked
    (hrev : a.Revoked last seen) : a'.Revoked last (seen ++ i.delivery.toList) := by
  cases h with
  | refused => exact hrev.mono _
  | event heff => exact hrev.event heff (notRevived_of_admissible hok hacc) rfl
  | state heff => exact (hrev.state heff).mono _
  | refund heff => exact (hrev.refund heff).mono _
  | other _ _ hst =>
    show Account.Revoked last (seen ++ []) _
    rw [append_nil]
    refine ⟨hrev.period, ?_⟩
    rcases hrev.cancelled with ⟨s, ⟨⟩, hc, hne⟩ | hlate
    · exact .inl ⟨_, rfl, hst hc, hne⟩
    · exact .inr hlate

end

/-- What holds along every run. -/
structure Follow (tradeNo : String) (plan : Plan) (db : Db) : Prop where
  next : 0 < db.subscriptions.next
  sound : ∃ a, db.account tradeNo = some a ∧ a.Sound plan

theorem Follow.run (h : Follow tradeNo plan db) (hpl : 0 < plan.totalAmount)
    (hss : Along (exec tradeNo) (AccountStep.Admissible tradeNo) db steps) :
    Follow tradeNo plan (run (exec tradeNo) db steps) := by
  refine run_rule (fun db i hok h => ?_) h hss
  obtain ⟨a, hacc, hsnd⟩ := h.sound
  obtain ⟨hn, a', hacc', hmv⟩ := moves hok hacc h.next
  exact ⟨hn, a', hacc', hmv.sound hok hacc hpl hsnd⟩

/-- The account stays revoked until a later period is granted. -/
theorem revoked_run (hn : 0 < db.subscriptions.next)
    (hacc : db.account tradeNo = some a) (hrev : a.Revoked last [])
    (hss : Along (exec tradeNo) (AccountStep.Admissible tradeNo) db steps) :
    ∃ a', (run (exec tradeNo) db steps).account tradeNo = some a' ∧
      a'.Revoked last (delivered delivery steps) := by
  have hs : ∀ seen db (i : AccountStep), i.Admissible tradeNo db →
      (0 < db.subscriptions.next ∧ ∃ a, db.account tradeNo = some a ∧ a.Revoked last seen) →
      0 < (i.exec tradeNo db).subscriptions.next ∧
        ∃ a, (i.exec tradeNo db).account tradeNo = some a ∧
          a.Revoked last (seen ++ i.delivery.toList) := by
    rintro seen db i hok ⟨hn, a, hacc, hrev⟩
    obtain ⟨hn', a', hacc', hmv⟩ := moves hok hacc hn
    exact ⟨hn', a', hacc', hmv.revoked hok hacc hrev⟩
  exact (delivery_rule hs ⟨hn, a, hacc, hrev⟩ hss).2

/-- **A refunded subscription is not revived**: in a run in which no `subscription.recovered` event
meets a cancelled subscription in the period that it is for,

* a subscription that is cancelled at some point, as a full refund leaves it, is active at the end only
  with a later period, which an event delivered in between has granted;
* a subscription that is active at the end has quota. -/
theorem refunded_not_revived {steps : List AccountStep} (hplan : 0 < plan.totalAmount)
    (haccount : db.account tradeNo = some a) (hsound : a.Sound plan)
    (hnext : 0 < db.subscriptions.next)
    (hsteps : Along (AccountStep.exec tradeNo) (AccountStep.Admissible tradeNo) db steps) :
    (∀ before after o s o' s', steps = before ++ after →
      (run (AccountStep.exec tradeNo) db before).account tradeNo = some ⟨o, some s⟩ →
      s.status = .cancelled →
      (run (AccountStep.exec tradeNo) db steps).account tradeNo = some ⟨o', some s'⟩ →
      s'.status = .active → o.currentPeriodEnd < o'.currentPeriodEnd ∧
        ∃ e ∈ delivered AccountStep.delivery after, o.currentPeriodEnd < e.periodEnd) ∧
    ∀ o s, (run (AccountStep.exec tradeNo) db steps).account tradeNo = some ⟨o, some s⟩ →
      s.status = .active → 0 < s.amountTotal := by
  have hstart : Follow tradeNo plan db := ⟨hnext, a, haccount, hsound⟩
  refine ⟨?_, fun o s hend hactive => ?_⟩
  · rintro before after o s o' s' rfl hcancelled hstatus hend hactive
    obtain ⟨hbefore, hafter⟩ := along_append.1 hsteps
    have hmiddle := hstart.run hplan hbefore
    obtain ⟨a', haccount', hrevoked⟩ := revoked_run hmiddle.next hcancelled
      ⟨le_rfl, .inl ⟨s, rfl, hstatus, Db.account_userSubscriptionId hcancelled⟩⟩ hafter
    have hrun : run (exec tradeNo) db (before ++ after) =
        run (exec tradeNo) (run (exec tradeNo) db before) after :=
      foldl_append
    rw [hrun] at hend
    obtain rfl := mem_unique hend haccount'
    rcases hrevoked.cancelled with ⟨t, ⟨⟩, hc, -⟩ | hlate
    · cases hc.symm.trans hactive
    · exact hlate
  · obtain ⟨a', haccount', hsound'⟩ := (hstart.run hplan hsteps).sound
    obtain rfl := mem_unique hend haccount'
    exact hsound'.quota s rfl fun hc => nomatch hc.symm.trans hactive

/-! ### A refunded month -/

/-- The end of the period of an order, and the status and the quota of its subscription. -/
def summary (tradeNo : String) (db : Db) : Option (ℤ × Subscription.SubscriptionStatus × ℤ) :=
  (db.account tradeNo).bind fun a =>
    a.sub.map fun s => (a.order.currentPeriodEnd, s.status, s.amountTotal)

theorem summary_eq_some {last total : ℤ} {status : Subscription.SubscriptionStatus}
    (h : summary tradeNo db = some (last, status, total)) :
    ∃ o s, db.account tradeNo = some ⟨o, some s⟩ ∧ o.currentPeriodEnd = last ∧
      s.status = status ∧ s.amountTotal = total := by
  obtain ⟨⟨o, _⟩, hacc, h⟩ := bind_eq_some_iff.1 h
  obtain ⟨s, rfl, h⟩ := map_eq_some_iff.1 h
  obtain ⟨hl, hr⟩ := Prod.mk.inj h
  obtain ⟨hst, htot⟩ := Prod.mk.inj hr
  exact ⟨o, s, hacc, hl, hst, htot⟩

/-- A payment that carries its period. -/
def paidMonth : LifecycleEvent where
  eventId := "p1"
  eventType := "subscription.payment_succeeded"
  providerOrderId := "ORD1"
  paymentId := "pay1"
  currency := "usd"
  periodStart := 1000
  periodEnd := 2000
  amountMicros := 5000000

/-- The refund of the payment. -/
def fullRefund : RefundRequest where
  tradeNo := "T1"
  providerTransactionId := "pay1"
  providerEventId := "r1"
  paymentMethod := "waffo"
  paymentProvider := "waffo_pancake"
  currency := "usd"
  amountMicros := 5000000
  actorId := 1

/-- A lifecycle event of a month. -/
def monthEvent (eventType eventId : String) (periodStart periodEnd : ℤ) : LifecycleEvent where
  eventId
  eventType
  providerOrderId := "ORD1"
  billingPeriod := "monthly"
  currency := "usd"
  periodStart
  periodEnd
  amountMicros := 5000000

/-- The month is paid and refunded. -/
def refundSteps : List AccountStep :=
  [.event (sampleEnv 1100) paidMonth, .refund (sampleEnv 1200) fullRefund]

/-- The next month is granted. -/
def renewalSteps : List AccountStep :=
  refundSteps ++ [.event (sampleEnv 2100) (monthEvent "subscription.renewed" "l2" 2000 3000)]

theorem refunded_not_revived_renewed :
    ∃ o s o' s', (run (AccountStep.exec "T1") sampleDb refundSteps).account "T1" =
        some ⟨o, some s⟩ ∧ s.status = .cancelled ∧
      (run (AccountStep.exec "T1") sampleDb renewalSteps).account "T1" = some ⟨o', some s'⟩ ∧
      s'.status = .active ∧ o.currentPeriodEnd < o'.currentPeriodEnd ∧ 0 < s'.amountTotal := by
  obtain ⟨o, s, haccount, -, hstatus, -⟩ := summary_eq_some
    (show summary "T1" (run (exec "T1") sampleDb refundSteps) = some (2000, .cancelled, 0) by
      decide +kernel)
  obtain ⟨o', s', haccount', -, hstatus', -⟩ := summary_eq_some
    (show summary "T1" (run (exec "T1") sampleDb renewalSteps) = some (3000, .active, 1000) by
      decide +kernel)
  have hstart : sampleDb.account "T1" = some ⟨sampleOrder, none⟩ :=
    sampleDb.account_of_findOrder (show _ = some (1, _) by decide +kernel)
  have hsteps : Along (exec "T1") (AccountStep.Admissible "T1") sampleDb renewalSteps :=
    ⟨(by decide +kernel : ¬Revives ..), (by decide +kernel : _ = _),
      (by decide +kernel : ¬Revives ..), trivial⟩
  obtain ⟨hrevived, hquota⟩ := refunded_not_revived (by decide) hstart
    ⟨rfl, (fun s hs => nomatch hs), fun s hs => nomatch hs⟩ (by decide) hsteps
  exact ⟨o, s, o', s', haccount, hstatus, haccount', hstatus',
    (hrevived refundSteps _ o s o' s' rfl haccount hstatus haccount' hstatus').1,
    hquota o' s' haccount' hstatus'⟩

/-- A recovery event for the refunded month makes the subscription active with unlimited quota. -/
theorem refunded_subscription_revived :
    summary "T1" (run (AccountStep.exec "T1") sampleDb refundSteps) = some (2000, .cancelled, 0) ∧
      summary "T1" (run (AccountStep.exec "T1") sampleDb (refundSteps ++
        [.event (sampleEnv 1300) (monthEvent "subscription.recovered" "l1" 1000 2000)])) =
        some (2000, .active, 0) := by
  constructor <;> decide +kernel

end LmmApi.Recurring
