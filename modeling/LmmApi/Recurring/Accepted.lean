import LmmApi.Recurring.Account

/-!
# Events that are accepted

When a lifecycle event is *ready* to be handled, that is, the tables hold what its transaction looks
up and no other receipt has its id, and when its period neither overlaps the one the order has nor
has the same end with another start, the transaction succeeds
(`recordWaffoPancakeSubscriptionEvent_ok`). What it then does to the account is `EventEffect`.
-/

namespace LmmApi.Recurring

open Guarded Go Option Table
open Recharge (paymentProviderWaffoPancake)

variable {env : Env} {db : Db} {tradeNo : String} {id : ℕ} {order : Order}
  {sub : UserSubscription} {plan : Plan} {e : LifecycleEvent}

/-! ## Subscriptions and groups -/

/-- The user may get a subscription of the plan. -/
def Purchasable (env : Env) (subscriptions : Table UserSubscription) (user : ℕ) (plan : Plan) :
    Prop :=
  plan.id ≠ 0 ∧ 0 < user ∧ ¬(0 < plan.maxPurchasePerUser ∧ plan.maxPurchasePerUser ≤
      subscriptions.count fun _ s => s.userId = user ∧ s.planId = plan.id) ∧
    (calcPlanEndTime env env.now plan).toOption.isSome
  deriving Decidable

theorem createUserSubscriptionFromPlan_ok {user : ℕ}
    (h : Purchasable env db.subscriptions user plan) (hlv : (db.liveUser user).isSome) :
    ∃ out, createUserSubscriptionFromPlan env db user plan = .ok out := by
  obtain ⟨hid, hu, hlim, hend⟩ := h
  obtain ⟨_, hend⟩ := isSome_iff_exists.1 hend
  obtain ⟨_, hown⟩ := isSome_iff_exists.1 hlv
  refine exists_ok_bind (require_of hid) (exists_ok_bind (require_of hu)
    (exists_ok_bind (require_of hlim) (exists_ok_bind (toOption_eq_some.1 hend) ?_)))
  split
  · exact ⟨_, rfl⟩
  · refine exists_ok_bind (orFail_eq_ok.2 hown) ?_
    split <;> exact ⟨_, rfl⟩

theorem downgradeUserGroup_ok {now : ℤ} (hlv : (db.liveUser sub.userId).isSome) :
    ∃ out, downgradeUserGroup db id sub now = .ok out := by
  obtain ⟨_, hown⟩ := isSome_iff_exists.1 hlv
  unfold downgradeUserGroup
  extract_lets downgradeGroup upgradeGroup target
  split
  · exact ⟨_, rfl⟩
  · refine exists_ok_bind (orFail_eq_ok.2 hown) ?_
    split
    · exact ⟨_, rfl⟩
    · split
      · exact ⟨_, rfl⟩
      · split <;> exact ⟨_, rfl⟩

theorem saveWithGroup_ok {sid : ℕ} {user : User} (hlv : (db.liveUser sub.userId).isSome) :
    ∃ out, saveWithGroup env sid sub user db = .ok out := by
  unfold saveWithGroup
  split
  · exact downgradeUserGroup_ok hlv
  · exact ⟨_, rfl⟩

/-! ## Lifecycle events -/

/-- The tables hold what the transaction of a lifecycle event looks up, and no other receipt has its
id. -/
@[mk_iff]
structure Ready (env : Env) (tradeNo : String) (plan : Plan) (event : LifecycleEvent) (id : ℕ)
    (order : Order) (db : Db) : Prop where
  named : trimSpace tradeNo ≠ ""
  planRow : 0 < order.planId ∧ (env.plans order.planId).isSome
  opened : order.status = .pending ∨ order.status = .success
  bound : order.providerSubscriptionId = "" ∨
    order.providerSubscriptionId = event.trimmed.providerOrderId
  live : (db.liveUser order.userId).isSome
  owned : order.userSubscriptionId ≠ 0 →
    ∃ s ∈ db.subscriptions.get? order.userSubscriptionId, s.userId = order.userId
  purchasable : order.userSubscriptionId = 0 → Purchasable env db.subscriptions order.userId plan
  unpaid : ¬db.payments.Any fun _ r => r.eventId = event.trimmed.withScopedId.eventId
  receipt : ¬db.periods.Any fun _ r => r.eventId = event.trimmed.withScopedId.eventId ∧
    ¬r.Records id event.trimmed.withScopedId

instance (env : Env) (tradeNo : String) (plan : Plan) (event : LifecycleEvent) (id : ℕ)
    (order : Order) (db : Db) : Decidable (Ready env tradeNo plan event id order db) :=
  decidable_of_iff' _ (ready_iff ..)

theorem recordWaffoPancakePeriod_ok (hunp : ¬db.payments.Any fun _ r => r.eventId = e.eventId)
    (hrec : ¬db.periods.Any fun _ r => r.eventId = e.eventId ∧ ¬r.Records id e) :
    ∃ out, recordWaffoPancakePeriod id e db = .ok out := by
  refine exists_ok_bind (require_of fun h => hunp h.2) ?_
  split
  · rename_i j r hfst
    obtain ⟨hg, hid⟩ := first?_eq_some hfst
    have hrc : r.Records id e := by
      by_contra hne
      exact hrec (any_iff.2 ⟨j, r, hg, hid, hne⟩)
    exact exists_ok_bind (require_of hrc) ⟨_, rfl⟩
  · exact ⟨_, rfl⟩

section

variable (hlv : (db.liveUser order.userId).isSome)
  (howne : order.userSubscriptionId ≠ 0 →
    ∃ s ∈ db.subscriptions.get? order.userSubscriptionId, s.userId = order.userId)
  (hpur : order.userSubscriptionId = 0 → Purchasable env db.subscriptions order.userId plan)
include hlv howne hpur

/-- The subscription that a period is granted to belongs to the user of the order. -/
theorem subscriptionForPeriod_ok :
    ∃ sid sub user db', subscriptionForPeriod env order plan db = .ok ((sid, sub), user, db') ∧
      (db'.liveUser sub.userId).isSome := by
  obtain ⟨owner, hown⟩ := isSome_iff_exists.1 hlv
  by_cases hz : order.userSubscriptionId = 0
  · obtain ⟨⟨_, db'⟩, hcre⟩ := createUserSubscriptionFromPlan_ok (hpur hz) hlv
    obtain ⟨endUnix, prevGroup, rfl, hsa⟩ := createUserSubscriptionFromPlan_eq_ok hcre
    refine ⟨db.subscriptions.next, newSubscription env order.userId plan endUnix prevGroup, owner,
      db', ?_, (hsa.2 order.userId).trans hlv⟩
    rw [subscriptionForPeriod, if_pos hz, hown, orFail_some, ok_bind, hcre]
    rfl
  · obtain ⟨s, hg, hs⟩ := howne hz
    have hlock := lockUserSubscription_eq_ok.2
      ⟨Nat.pos_of_ne_zero hz, hg, .inr hs, show db.liveUser s.userId = some owner from
        hs ▸ hown⟩
    refine ⟨order.userSubscriptionId, s, owner, db, ?_, hs ▸ hlv⟩
    rw [subscriptionForPeriod, if_neg hz, hlock]
    rfl

theorem grantPeriod_ok (hfro : waffoSubscriptionPlanSnapshot order = .ok plan) :
    ∃ out, grantPeriod env id order e db = .ok out := by
  obtain ⟨sid, sub, user, db', hsub, hlv'⟩ := subscriptionForPeriod_ok hlv howne hpur
  refine exists_ok_bind hfro (exists_ok_bind hsub ?_)
  simp only []
  split
  · exact ⟨_, rfl⟩
  · obtain ⟨db₂, hsave⟩ : ∃ db₂, saveWithGroup env sid (withPeriodStatus env e
        (if decide (order.userSubscriptionId = 0 ∨ order.currentPeriodEnd < e.periodEnd) = true then
          withNewPeriod env plan e sub else sub)) user db' = .ok db₂ := by
      refine saveWithGroup_ok ?_
      simp only [withPeriodStatus_kept]
      split <;> exact hlv'
    exact exists_ok_bind hsave ⟨_, rfl⟩

end

/-- The period of an event fits the one that the order has: it neither overlaps it nor ends with it
after another start. -/
def Order.Fits (order : Order) (e : LifecycleEvent) : Prop :=
  ¬(order.currentPeriodEnd = e.periodEnd ∧ order.currentPeriodStart ≠ e.periodStart) ∧
    ¬(0 < order.currentPeriodEnd ∧ order.currentPeriodEnd < e.periodEnd ∧
      e.periodStart < order.currentPeriodEnd)

theorem applyWaffoPancakePeriod_ok
    (hsig : ¬(0 < e.eventTimeMillis ∧ e.eventTimeMillis / 1000 < e.periodStart))
    (hft : order.Fits e) (hgra : ∃ out, grantPeriod env id order e db = .ok out) :
    ∃ out, applyWaffoPancakePeriod env id order e db = .ok out := by
  refine exists_ok_bind (require_of hsig) ?_
  split
  · exact ⟨_, rfl⟩
  · split
    · exact ⟨_, rfl⟩
    · split
      · exact ⟨_, rfl⟩
      · exact exists_ok_bind (require_of hft.1) (exists_ok_bind (require_of hft.2) hgra)

/-- **A lifecycle event that is ready and fits is accepted.** -/
theorem recordWaffoPancakeSubscriptionEvent_ok {event : LifecycleEvent}
    (hf : db.findOrder tradeNo = some (id, order))
    (hrdy : Ready env tradeNo plan event id order db) (hcp : event.trimmed.Complete)
    (hlif : ¬event.IsPayment) (hpv : order.paymentProvider = paymentProviderWaffoPancake)
    (hamt : 0 < order.expectedAmountMicros ∧ order.expectedAmountMicros = event.amountMicros)
    (hcur : equalFold (trimSpace order.settlementCurrency) event.trimmed.currency = true)
    (hfro : waffoSubscriptionPlanSnapshot order = .ok plan)
    (hsig : ¬(0 < event.eventTimeMillis ∧ event.eventTimeMillis / 1000 < event.periodStart))
    (hft : order.Fits event) :
    ∃ out, recordWaffoPancakeSubscriptionEvent env tradeNo event db = .ok out := by
  have hlif' : ¬event.trimmed.withScopedId.IsPayment := hlif
  obtain ⟨_, hr⟩ := isSome_iff_exists.1 hrdy.planRow.2
  have hpl : lookupPlan env order event.trimmed.withScopedId = .ok () := by
    rw [lookupPlan, if_pos (.inl hlif'), getSubscriptionPlanForPersistence,
      require_of hrdy.planRow.1, ok_bind, hr]
    rfl
  have hmat : event.trimmed.withScopedId.Matches order := ⟨hamt.1, hamt.2, hcur, hrdy.bound⟩
  have hmon : recordMoney env id (order.bound event.trimmed.withScopedId)
      event.trimmed.withScopedId (db.saveOrder id (order.bound event.trimmed.withScopedId)) =
      .ok (false, order.bound event.trimmed.withScopedId,
        db.saveOrder id (order.bound event.trimmed.withScopedId)) := by
    rw [recordMoney, if_neg hlif']
    rfl
  refine exists_ok_bind (require_of ⟨hrdy.named, hcp⟩)
    (exists_ok_bind (orFail_eq_ok.2 hf) (exists_ok_bind hpl
      (exists_ok_bind (require_of hpv) (exists_ok_bind (require_of hrdy.opened)
        (exists_ok_bind (require_of hmat) (exists_ok_bind hmon ?_))))))
  obtain ⟨provider, hbou⟩ := order.bound_eq event.trimmed.withScopedId
  rw [hbou]
  obtain ⟨db₁, hrec⟩ : ∃ db₁, recordWaffoPancakePeriod id event.trimmed.withScopedId
      (db.saveOrder id { order with providerSubscriptionId := provider }) = .ok db₁ :=
    recordWaffoPancakePeriod_ok hrdy.unpaid hrdy.receipt
  obtain ⟨periods, rfl⟩ := recordWaffoPancakePeriod_eq_ok hrec
  obtain ⟨out, happ⟩ : ∃ out, applyWaffoPancakePeriod env id
      { order with providerSubscriptionId := provider } event.trimmed.withScopedId
      { db.saveOrder id { order with providerSubscriptionId := provider } with periods } =
        .ok out :=
    applyWaffoPancakePeriod_ok hsig hft (grantPeriod_ok hrdy.live hrdy.owned hrdy.purchasable hfro)
  have hacs : recordAccess env id { order with providerSubscriptionId := provider }
      event.trimmed.withScopedId
      (db.saveOrder id { order with providerSubscriptionId := provider }) = .ok out := by
    rw [recordAccess, if_pos (.inl hlif'), hrec, ok_bind, happ]
  exact exists_ok_bind hacs ⟨_, rfl⟩

end LmmApi.Recurring
