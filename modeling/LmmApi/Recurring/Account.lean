import LmmApi.Recurring.Refund
import LmmApi.Recurring.Waffo

/-!
# The account of an order

What the events of a provider are about is an order together with its subscription: its *account*.
This module says what each transaction can do to an account, with the conditions under which it does
it: `EventEffect` for an event of the streams of payments and periods, `StateEffect` for a change of
state and `RefundEffect` for a refund. What it does to the receipts, the tables of payments and
refunds, is `Receipts.Grows`, `Db.Kept` and `RefundOutcome`. The results about whole runs are proved
from these effects and never look at the transactions again.
-/

namespace LmmApi.Recurring

open Guarded Go Option Table
open Recharge (OrderStatus)

variable {env : Env} {db db' : Db} {tradeNo : String} {id : ℕ} {order order' : Order}
  {sub : UserSubscription} {plan : Plan} {e : LifecycleEvent} {sid : ℕ} {granted : Bool}

/-- An order with its subscription, if it has one. -/
structure Account where
  order : Order
  sub : Option UserSubscription

/-- The account of an order that was found. -/
def Db.accountOf (db : Db) (order : Order) : Account where
  order
  sub := if order.userSubscriptionId = 0 then none else db.subscriptions.get? order.userSubscriptionId

/-- The account of a trade number. -/
def Db.account (db : Db) (tradeNo : String) : Option Account :=
  (db.findOrder tradeNo).map fun o => db.accountOf o.2

theorem Db.account_of_findOrder (db : Db) (h : db.findOrder tradeNo = some (id, order)) :
    db.account tradeNo = some (db.accountOf order) := by
  rw [account, h]
  rfl

/-- The account after its order was saved. -/
theorem Db.account_saveOrder (db : Db) (order' : Order)
    (hf : db.findOrder tradeNo = some (id, order)) (hnm : order'.tradeNo = order.tradeNo) :
    (db.saveOrder id order').account tradeNo = some (db.accountOf order') :=
  (db.saveOrder id order').account_of_findOrder (findOrder_saveOrder hf hnm)

/-- An account with a subscription is that of an order that names it. -/
theorem Db.account_userSubscriptionId {o : Order}
    (h : db.account tradeNo = some ⟨o, some sub⟩) : o.userSubscriptionId ≠ 0 := by
  obtain ⟨⟨id, _⟩, -, hacc⟩ := map_eq_some_iff.1 h
  obtain ⟨rfl, hsub⟩ := Account.mk.inj hacc
  intro hz
  rw [if_pos hz] at hsub
  cases hsub

theorem accountOf_of_get (hne : order.userSubscriptionId ≠ 0)
    (hg : db.subscriptions.get? order.userSubscriptionId = some sub) :
    db.accountOf order = ⟨order, some sub⟩ := by
  rw [Db.accountOf, if_neg hne, hg]

/-- The account after its order and its subscription were saved. -/
theorem Db.account_saved (db : Db) {sub' : UserSubscription}
    (hf : db.findOrder tradeNo = some (id, order)) (hnm : order'.tradeNo = order.tradeNo)
    (hsid : order'.userSubscriptionId = sid) (hne : sid ≠ 0)
    (hg : db.subscriptions.get? sid = some sub) :
    ((db.saveSubscription sid sub').saveOrder id order').account tradeNo =
      some ⟨order', some sub'⟩ := by
  have hg' : (db.saveSubscription sid sub').subscriptions.get? sid = some sub' := by
    rw [saveSubscription, get?_modify_self, hg]
    rfl
  subst hsid
  rw [account_saveOrder (db.saveSubscription _ sub') order' hf hnm, accountOf_of_get hne hg']

theorem Db.SameButGroups.next (h : db.SameButGroups db') :
    db'.subscriptions.next = db.subscriptions.next := by
  obtain ⟨⟨_, rfl⟩, -⟩ := h
  rfl

theorem Db.SameButGroups.account (h : db.SameButGroups db') :
    db'.account tradeNo = db.account tradeNo := by
  obtain ⟨⟨_, rfl⟩, -⟩ := h
  rfl

/-! ## Receipts -/

/-- The payments and their refunds. -/
structure Receipts where
  refunds : Table PaymentRefund
  payments : Table PaymentEvent

def Db.receipts (db : Db) : Receipts := ⟨db.refunds, db.paymentEvents⟩

namespace Receipts

/-- The sum of the amounts that were refunded of a payment. -/
def refunded (x : Receipts) (payment : ℕ) : ℤ :=
  x.refunds.sum fun _ r => if r.paymentEventId = payment then r.amountMicros else 0

/-- The sum of the quota that was taken back for a payment. -/
def revoked (x : Receipts) (payment : ℕ) : ℤ :=
  x.refunds.sum fun _ r => if r.paymentEventId = payment then r.quotaRevoked else 0

/-- A refund of an event of the provider is booked. -/
def Booked (x : Receipts) (provider event : String) : Prop :=
  x.refunds.Any fun _ r => r.paymentProvider = provider ∧ r.providerEventId = event

/-- What an event leaves of the receipts: at most one payment of the order is added, and its period
has another end than those of the other payments of the order. -/
def Grows (id : ℕ) (x x' : Receipts) : Prop :=
  x' = x ∨ ∃ row, row.orderId = id ∧ 0 ≤ row.settlementAmountMicros ∧
    x' = { x with payments := x.payments.insert row } ∧
    ∀ j p, x.payments.get? j = some p → p.orderId = id → row.period ≠ none →
      p.period.map Prod.snd ≠ row.period.map Prod.snd

end Receipts

theorem Db.SameButGroups.receipts (h : db.SameButGroups db') : db'.receipts = db.receipts := by
  obtain ⟨⟨_, rfl⟩, -⟩ := h
  rfl

theorem Db.SameButGroups.findOrder (h : db.SameButGroups db') :
    db'.findOrder tradeNo = db.findOrder tradeNo := by
  obtain ⟨⟨_, rfl⟩, -⟩ := h
  rfl

/-- The receipts are the same, and the order has its key. -/
structure Db.Kept (db : Db) (tradeNo : String) (id : ℕ) (db' : Db) : Prop where
  receipts : db'.receipts = db.receipts
  found : ∃ order', db'.findOrder tradeNo = some (id, order')

/-! ## Effects -/

/-- The order without what the stream of payments changes. -/
def Order.access (o : Order) : Order :=
  { o with
    status := .success
    completeTime := 0
    providerPayload := ""
    providerSubscriptionId := "" }

section

variable (h : order'.access = order.access)
include h

theorem access_planSnapshot : order'.planSnapshot = order.planSnapshot :=
  (congrArg Order.planSnapshot h :)

theorem access_userSubscriptionId : order'.userSubscriptionId = order.userSubscriptionId :=
  (congrArg Order.userSubscriptionId h :)

theorem access_currentPeriodStart : order'.currentPeriodStart = order.currentPeriodStart :=
  (congrArg Order.currentPeriodStart h :)

theorem access_currentPeriodEnd : order'.currentPeriodEnd = order.currentPeriodEnd :=
  (congrArg Order.currentPeriodEnd h :)

theorem access_providerEventTimeMillis :
    order'.providerEventTimeMillis = order.providerEventTimeMillis :=
  (congrArg Order.providerEventTimeMillis h :)

theorem access_providerSubscriptionState :
    order'.providerSubscriptionState = order.providerSubscriptionState :=
  (congrArg Order.providerSubscriptionState h :)

end

/-- The order makes nothing of the period of an event: its state is terminal, or it knows a later
event or a later period. -/
def Order.Ignores (o : Order) (e : LifecycleEvent) : Prop :=
  subscriptionProviderStateTerminal o.providerSubscriptionState = true ∨
    (0 < e.eventTimeMillis ∧ e.eventTimeMillis < o.providerEventTimeMillis) ∨
    e.periodEnd < o.currentPeriodEnd
  deriving Decidable

/-- What an event of the streams of payments and periods does to an account. The order may be
settled or bound to its provider in any case, which `Order.access` leaves out. -/
inductive EventEffect (env : Env) (e : LifecycleEvent) : Account → Account → Prop
  /-- A payment without a period. -/
  | money {o o' : Order} {s : Option UserSubscription} (haccess : o'.access = o.access)
      (hpayment : e.IsPayment) : EventEffect env e ⟨o, s⟩ ⟨o', s⟩
  /-- A period that the order makes nothing of. -/
  | ignored {o o' : Order} {s : Option UserSubscription} (haccess : o'.access = o.access)
      (h : o.Ignores e) : EventEffect env e ⟨o, s⟩ ⟨o', s⟩
  /-- The period that the order has already. -/
  | known {o o' : Order} {s : Option UserSubscription} (haccess : o'.access = o.access)
      (h : o.currentPeriodEnd = e.periodEnd) (hstart : o.currentPeriodStart = e.periodStart)
      (hsub : o.userSubscriptionId ≠ 0) : EventEffect env e ⟨o, s⟩ ⟨o', s⟩
  /-- A new period, for the subscription of the order or a new one. -/
  | granted {o o' : Order} {s : Option UserSubscription} {plan : Plan} {sub : UserSubscription}
      {sid : ℕ} (haccess : o'.access = o.access) (hperiod : e.HasPeriod) (h : ¬o.Ignores e)
      (hplan : o.planSnapshot = .frozen plan)
      (hnew : o.userSubscriptionId = 0 ∨ o.currentPeriodEnd < e.periodEnd) (hsid : sid ≠ 0)
      (hsub : o.userSubscriptionId ≠ 0 → s = some sub) :
      EventEffect env e ⟨o, s⟩ ⟨o'.withPeriod sid true e,
        some (withPeriodStatus env e (withNewPeriod env plan e sub))⟩
  /-- The subscription has recovered. -/
  | recovered {o o' : Order} {sub : UserSubscription} (haccess : o'.access = o.access)
      (h : ¬o.Ignores e) (htype : e.eventType = lifecycleRecovered)
      (hend : o.currentPeriodEnd = e.periodEnd) (hstart : o.currentPeriodStart = e.periodStart)
      (hid : o.userSubscriptionId ≠ 0) :
      EventEffect env e ⟨o, some sub⟩ ⟨o'.withPeriod o.userSubscriptionId false e,
        some (withPeriodStatus env e sub)⟩

/-- What a change of state does to an account. -/
inductive StateEffect (env : Env) (c : StateChange) : Account → Account → Prop
  | stale {a : Account} (h : c.Stale a.order) : StateEffect env c a a
  | stored {o : Order} {s : Option UserSubscription} (h : ¬c.Stale o)
      (hterminal : subscriptionProviderStateTerminal c.state = false ∨ o.userSubscriptionId = 0) :
      StateEffect env c ⟨o, s⟩ ⟨o.withState c, s⟩
  | cancelled {o : Order} {sub : UserSubscription} (h : ¬c.Stale o)
      (hterminal : subscriptionProviderStateTerminal c.state = true) :
      StateEffect env c ⟨o, some sub⟩ ⟨o.withState c, some (cancelledAt env c.eventTimeMillis sub)⟩

/-- What a refund does to an account. -/
inductive RefundEffect (env : Env) : Account → Account → Prop
  /-- The refund is booked only. -/
  | booked {a : Account} : RefundEffect env a a
  /-- The refund takes back quota of the current period. -/
  | revoked {o : Order} {sub : UserSubscription} {plan : Plan} {payment : PaymentEvent}
      {refunded quota : ℤ} (hplan : o.planSnapshot = .frozen plan) (hpayment : o.CurrentPayment payment) :
      RefundEffect env ⟨o, some sub⟩
        ⟨{ o with refundedAmountMicros := refunded, refundedQuota := quota },
          some (revokedSubscription env plan payment refunded sub)⟩

/-! ## Events -/

/-- A lifecycle event has a period. -/
theorem LifecycleEvent.Complete.hasPeriod (h : e.Complete) (hlif : ¬e.IsPayment) : e.HasPeriod := by
  obtain ⟨-, -, -, -, h⟩ := h
  rw [if_neg hlif] at h
  exact h.2.1

theorem recordWaffoPancakePayment_eq_ok (h : recordWaffoPancakePayment id e db = .ok db') :
    ∃ payments, db' = { db with payments } := by
  obtain ⟨-, h⟩ := of_bind h
  obtain ⟨-, h⟩ := of_bind h
  obtain ⟨-, h⟩ := of_bind h
  split at h
  · exact ⟨db.payments, (pure_eq_ok.1 h).symm⟩
  · exact ⟨_, (pure_eq_ok.1 h).symm⟩

theorem recordWaffoPancakePeriod_eq_ok (h : recordWaffoPancakePeriod id e db = .ok db') :
    ∃ periods, db' = { db with periods } := by
  obtain ⟨-, h⟩ := of_bind h
  split at h
  · obtain ⟨-, h⟩ := of_bind h
    exact ⟨db.periods, (pure_eq_ok.1 h).symm⟩
  · exact ⟨_, (pure_eq_ok.1 h).symm⟩

/-- What the stream of payments keeps. -/
structure MoneyKept (tradeNo : String) (id : ℕ) (order order' : Order) (db db' : Db) : Prop where
  found : db'.findOrder tradeNo = some (id, order')
  access : order'.access = order.access
  subscriptions : db'.subscriptions = db.subscriptions
  users : db'.users = db.users

section

variable (hpos : 0 ≤ e.amountMicros) (hf : db.findOrder tradeNo = some (id, order))
include hpos hf

theorem recordWaffoPancakeSettlement_kept {settled : Bool}
    (h : recordWaffoPancakeSettlement env id order e db = .ok (settled, order', db')) :
    MoneyKept tradeNo id order order' db db' ∧ db.receipts.Grows id db'.receipts := by
  unfold recordWaffoPancakeSettlement at h
  split at h
  · obtain ⟨-, h⟩ := of_bind h
    obtain ⟨⟩ := pure_eq_ok.1 h
    exact ⟨⟨hf, rfl, rfl, rfl⟩, .inl rfl⟩
  · obtain ⟨_, huni, h⟩ := bind_eq_ok.1 h
    have hgr : db.receipts.Grows id
        { db.receipts with payments := db.paymentEvents.insert (e.settlement id env.now) } := by
      refine .inr ⟨_, rfl, hpos, rfl, fun j p hp hord hper heq => ?_⟩
      exact require_eq_ok.1 huni (any_iff.2 ⟨j, p, hp, hord, hper, heq⟩)
    split at h
    · obtain ⟨_, hrec, h⟩ := bind_eq_ok.1 h
      obtain ⟨_, rfl⟩ := upsertSubscriptionTopUp_eq_ok hrec
      obtain ⟨⟩ := pure_eq_ok.1 h
      exact ⟨⟨Db.findOrder_saveOrder hf rfl, rfl, rfl, rfl⟩, hgr⟩
    · obtain ⟨⟩ := pure_eq_ok.1 h
      exact ⟨⟨hf, rfl, rfl, rfl⟩, hgr⟩

theorem recordMoney_kept {settled : Bool}
    (h : recordMoney env id order e db = .ok (settled, order', db')) :
    MoneyKept tradeNo id order order' db db' ∧ db.receipts.Grows id db'.receipts := by
  unfold recordMoney at h
  split at h
  · obtain ⟨_, hpay, h⟩ := bind_eq_ok.1 h
    obtain ⟨payments, rfl⟩ := recordWaffoPancakePayment_eq_ok hpay
    obtain ⟨⟨hf', hacs, hsub, hus⟩, hgr⟩ := recordWaffoPancakeSettlement_kept
      hpos (show ({ db with payments } : Db).findOrder tradeNo = _ from hf) h
    exact ⟨⟨hf', hacs, hsub, hus⟩, hgr⟩
  · obtain ⟨⟩ := pure_eq_ok.1 h
    exact ⟨⟨hf, rfl, rfl, rfl⟩, .inl rfl⟩

end

/-- What a grant keeps of the tables besides the order and its subscription. -/
structure GrantKept (db db' : Db) : Prop where
  live : ∀ j, (db'.liveUser j).isSome = (db.liveUser j).isSome
  periods : db'.periods = db.periods
  payments : db'.payments = db.payments
  next : db.subscriptions.next ≤ db'.subscriptions.next

theorem saveWithGroup_eq_ok {user : User}
    (h : saveWithGroup env sid sub user db = .ok db') :
    (db.saveSubscription sid sub).SameButGroups db' := by
  unfold saveWithGroup at h
  split at h
  · exact downgradeUserGroup_eq_ok h
  · obtain rfl := pure_eq_ok.1 h
    obtain ⟨⟨users, hus⟩, hlv⟩ := db.sameButGroups_upgradeUserGroup sub user
    rw [hus] at hlv ⊢
    exact ⟨⟨users, rfl⟩, hlv⟩

/-- The subscription of a period: that of the order, or a new row. -/
theorem subscriptionForPeriod_eq_ok {user : User}
    (h : subscriptionForPeriod env order plan db = .ok ((sid, sub), user, db')) :
    (order.userSubscriptionId ≠ 0 ∧ sid = order.userSubscriptionId ∧
      db.subscriptions.get? sid = some sub ∧ db' = db) ∨
    (order.userSubscriptionId = 0 ∧ sid = db.subscriptions.next ∧
      Db.SameButGroups { db with subscriptions := db.subscriptions.insert sub } db') := by
  unfold subscriptionForPeriod at h
  split at h
  · rename_i hn
    obtain ⟨owner, -, h⟩ := bind_eq_ok.1 h
    obtain ⟨⟨_, _⟩, hcrea, h⟩ := bind_eq_ok.1 h
    obtain ⟨rfl, hr⟩ := Prod.mk.inj (pure_eq_ok.1 h)
    cases hr
    obtain ⟨_, _, hcre, hs⟩ := createUserSubscriptionFromPlan_eq_ok hcrea
    exact .inr ⟨hn, (Prod.mk.inj hcre).1, hs⟩
  · rename_i hsm
    obtain ⟨⟨_, _⟩, hlock, h⟩ := bind_eq_ok.1 h
    obtain ⟨hsub, hr⟩ := Prod.mk.inj (pure_eq_ok.1 h)
    cases hsub
    cases hr
    exact .inl ⟨hsm, rfl, (lockUserSubscription_eq_ok.1 hlock).2.1, rfl⟩

theorem waffoSubscriptionPlanSnapshot_eq_ok
    (h : waffoSubscriptionPlanSnapshot order = .ok plan) : order.planSnapshot = .frozen plan := by
  unfold waffoSubscriptionPlanSnapshot at h
  split at h
  · rename_i hfro
    obtain ⟨-, h⟩ := of_bind h
    rw [hfro, pure_eq_ok.1 h]
  · cases h

section

variable (hf : db.findOrder tradeNo = some (id, order)) (hn : 0 < db.subscriptions.next)
include hf hn

/-- What a grant does, after the checks of the event. -/
theorem grantPeriod_eq_ok (h : grantPeriod env id order e db = .ok (granted, db')) :
    GrantKept db db' ∧ db.Kept tradeNo id db' ∧
    ((db' = db ∧ order.userSubscriptionId ≠ 0 ∧ ¬order.currentPeriodEnd < e.periodEnd ∧
        e.eventType ≠ lifecycleRecovered) ∨
      ∃ plan sid sub, order.planSnapshot = .frozen plan ∧ sid ≠ 0 ∧
        (order.userSubscriptionId ≠ 0 → sid = order.userSubscriptionId ∧
          db.subscriptions.get? sid = some sub) ∧
        ((order.userSubscriptionId = 0 ∨ order.currentPeriodEnd < e.periodEnd) ∧
            db'.account tradeNo = some ⟨order.withPeriod sid true e,
              some (withPeriodStatus env e (withNewPeriod env plan e sub))⟩ ∨
          (order.userSubscriptionId ≠ 0 ∧ ¬order.currentPeriodEnd < e.periodEnd) ∧
            e.eventType = lifecycleRecovered ∧
            db'.account tradeNo = some ⟨order.withPeriod sid false e,
              some (withPeriodStatus env e sub)⟩)) := by
  obtain ⟨plan, hpl, h⟩ := bind_eq_ok.1 h
  have hfro := waffoSubscriptionPlanSnapshot_eq_ok hpl
  obtain ⟨⟨⟨sid, sub⟩, user, db₁⟩, hsub, h⟩ := bind_eq_ok.1 h
  have hacq : GrantKept db db₁ ∧ sid ≠ 0 ∧ db₁.receipts = db.receipts ∧
      db₁.findOrder tradeNo = some (id, order) ∧
      db₁.subscriptions.get? sid = some sub ∧
      (order.userSubscriptionId ≠ 0 → sid = order.userSubscriptionId ∧
        db.subscriptions.get? sid = some sub ∧ db₁ = db) := by
    rcases subscriptionForPeriod_eq_ok hsub with ⟨hne, rfl, hg, rfl⟩ | ⟨hz, rfl, hs⟩
    · exact ⟨⟨fun _ => rfl, rfl, rfl, le_rfl⟩, hne, rfl, hf, hg, fun _ => ⟨rfl, hg, rfl⟩⟩
    · obtain ⟨⟨users, rfl⟩, hlv⟩ := hs
      exact ⟨⟨hlv, rfl, rfl, Nat.le_succ _⟩, hn.ne', rfl, hf,
        get?_insert_self _ _, fun hne => absurd hz hne⟩
  obtain ⟨hkt, hsid, hrcs, hf₁, hg₁, hold⟩ := hacq
  have hsav {fresh : Bool} {sub' : UserSubscription} {db₂ : Db}
      (hsave : saveWithGroup env sid sub' user db₁ = .ok db₂) :
      GrantKept db (db₂.saveOrder id (order.withPeriod sid fresh e)) ∧
        db.Kept tradeNo id (db₂.saveOrder id (order.withPeriod sid fresh e)) ∧
        (db₂.saveOrder id (order.withPeriod sid fresh e)).account tradeNo =
          some ⟨order.withPeriod sid fresh e, some sub'⟩ := by
    obtain ⟨⟨_, rfl⟩, hlv⟩ := saveWithGroup_eq_ok hsave
    exact ⟨⟨fun j => (hlv j).trans (hkt.live j), hkt.periods, hkt.payments, hkt.next⟩,
      ⟨hrcs, _, Db.findOrder_saveOrder hf₁ rfl⟩,
      db₁.account_saved hf₁ rfl rfl hsid hg₁⟩
  simp only [] at h
  split at h
  · rename_i hskip
    obtain ⟨⟩ := pure_eq_ok.1 h
    obtain ⟨hne, hle⟩ := not_or.1 (of_decide_eq_false hskip.1)
    obtain ⟨-, -, rfl⟩ := hold hne
    exact ⟨hkt, ⟨hrcs, order, hf₁⟩, .inl ⟨rfl, hne, hle, hskip.2⟩⟩
  · rename_i hgra
    obtain ⟨_, hsave, h⟩ := bind_eq_ok.1 h
    obtain ⟨⟩ := pure_eq_ok.1 h
    obtain ⟨hkt₂, hrcs₂, hacc⟩ := hsav hsave
    refine ⟨hkt₂, hrcs₂, .inr ⟨plan, sid, sub, hfro, hsid,
      fun hne => ⟨(hold hne).1, (hold hne).2.1⟩, ?_⟩⟩
    by_cases hfr : order.userSubscriptionId = 0 ∨ order.currentPeriodEnd < e.periodEnd
    · rw [decide_eq_true hfr, if_pos rfl] at hacc
      rw [decide_eq_true hfr]
      exact .inl ⟨hfr, hacc⟩
    · rw [decide_eq_false hfr, if_neg Bool.false_ne_true] at hacc
      rw [decide_eq_false hfr]
      have hty : e.eventType = lifecycleRecovered := by
        by_contra hty
        exact hgra ⟨decide_eq_false hfr, hty⟩
      exact .inr ⟨not_or.1 hfr, hty, hacc⟩

omit hf hn in
/-- An effect does not depend on what the stream of payments changes. -/
theorem EventEffect.of_access {o₁ o : Order} {s : Option UserSubscription} {a : Account}
    (h : EventEffect env e ⟨o₁, s⟩ a) (hacs : o₁.access = o.access) :
    EventEffect env e ⟨o, s⟩ a := by
  have hign : o₁.Ignores e ↔ o.Ignores e := by
    show o₁.access.Ignores e ↔ o.access.Ignores e
    rw [hacs]
  have hend := access_currentPeriodEnd hacs
  have hsta := access_currentPeriodStart hacs
  have hid := access_userSubscriptionId hacs
  have hpl := access_planSnapshot hacs
  cases h with
  | money hacs' hpay => exact .money (hacs'.trans hacs) hpay
  | ignored hacs' h => exact .ignored (hacs'.trans hacs) (hign.1 h)
  | known hacs' h hsta' hsub =>
    exact .known (hacs'.trans hacs) (hend ▸ h) (hsta ▸ hsta') (hid ▸ hsub)
  | granted hacs' hper h hfro hnew hsid hsub =>
    exact .granted (hacs'.trans hacs) hper (hign.not.1 h) (hpl ▸ hfro)
      (hid ▸ hend ▸ hnew) hsid (hid ▸ hsub)
  | recovered hacs' h hty hend' hsta' hid' =>
    rw [hid]
    exact .recovered (hacs'.trans hacs) (hign.not.1 h) hty (hend ▸ hend')
      (hsta ▸ hsta') (hid ▸ hid')

/-- What `applyWaffoPancakePeriod` does to the account. -/
theorem applyWaffoPancakePeriod_effect (hperi : e.HasPeriod)
    (h : applyWaffoPancakePeriod env id order e db = .ok (granted, db')) :
    GrantKept db db' ∧ db.Kept tradeNo id db' ∧
      ∃ a, db'.account tradeNo = some a ∧ EventEffect env e (db.accountOf order) a := by
  have hkp : GrantKept db db := ⟨fun _ => rfl, rfl, rfl, le_rfl⟩
  have hsa : db.Kept tradeNo id db := ⟨rfl, order, hf⟩
  have hacc := db.account_of_findOrder hf
  obtain ⟨_, h⟩ := of_bind h
  split at h
  · rename_i htm
    obtain ⟨⟩ := pure_eq_ok.1 h
    exact ⟨hkp, hsa, _, hacc, .ignored rfl (.inl htm)⟩
  · rename_i htm
    split at h
    · rename_i hold
      obtain ⟨⟩ := pure_eq_ok.1 h
      exact ⟨hkp, hsa, _, hacc, .ignored rfl (.inr (.inl hold))⟩
    · rename_i hold
      split at h
      · rename_i hear
        obtain ⟨⟩ := pure_eq_ok.1 h
        exact ⟨hkp, hsa, _, hacc, .ignored rfl (.inr (.inr hear))⟩
      · rename_i hear
        obtain ⟨_, hper, h⟩ := bind_eq_ok.1 h
        obtain ⟨_, h⟩ := of_bind h
        have hign : ¬order.Ignores e := by
          rintro (h | h | h)
          · exact htm h
          · exact hold h
          · exact hear h
        have hsta : order.currentPeriodEnd = e.periodEnd →
            order.currentPeriodStart = e.periodStart := fun hend => by
          by_contra hne
          exact require_eq_ok.1 hper ⟨hend, hne⟩
        obtain ⟨hkt, hrcs, hgra⟩ := grantPeriod_eq_ok hf hn h
        refine ⟨hkt, hrcs, ?_⟩
        rcases hgra with ⟨rfl, hne, hle, -⟩ | ⟨_, _, sub, hpl, hsid, hsub, hgra⟩
        · have hend : order.currentPeriodEnd = e.periodEnd := by omega
          exact ⟨_, hacc, .known rfl hend (hsta hend) hne⟩
        · have hs : order.userSubscriptionId ≠ 0 → (db.accountOf order).sub = some sub := by
            intro hne
            obtain ⟨rfl, hg⟩ := hsub hne
            rw [Db.accountOf, if_neg hne]
            exact hg
          rcases hgra with ⟨hfr, hacc'⟩ | ⟨⟨hne, hle⟩, hty, hacc'⟩
          · exact ⟨_, hacc', .granted rfl hperi hign hpl hfr hsid hs⟩
          · have hend : order.currentPeriodEnd = e.periodEnd := by omega
            obtain ⟨rfl, -⟩ := hsub hne
            refine ⟨_, hacc', ?_⟩
            have hv : db.accountOf order = ⟨order, some sub⟩ := by
              rw [← hs hne]
              rfl
            rw [hv]
            exact .recovered rfl hign hty hend (hsta hend) hne

omit hf hn in
/-- An effect depends on the type and the times of the event only. -/
theorem EventEffect.congr {d : LifecycleEvent} {a a' : Account} (h : EventEffect env d a a')
    (hty : d.eventType = e.eventType) (hsta : d.periodStart = e.periodStart)
    (hend : d.periodEnd = e.periodEnd) (htm : d.eventTimeMillis = e.eventTimeMillis) :
    EventEffect env e a a' := by
  obtain ⟨_, _, _, _, _, _, _,
    paymentDate, periodStart, periodEnd, amountMicros, eventTimeMillis⟩ := d
  simp only [] at hty hsta hend htm
  subst hty hsta hend htm
  cases h with
  | money hacs hpay => exact .money hacs hpay
  | ignored hacs h => exact .ignored hacs h
  | known hacs h hsta hsub => exact .known hacs h hsta hsub
  | granted hacs hper h hpl hnew hsid hsub => exact .granted hacs hper h hpl hnew hsid hsub
  | recovered hacs h hty hend hsta hid => exact .recovered hacs h hty hend hsta hid

/-- What the part of the transaction that grants access does to the account. -/
theorem recordAccess_effect (hper : ¬e.IsPayment → e.HasPeriod)
    (h : recordAccess env id order e db = .ok (granted, db')) :
    db.subscriptions.next ≤ db'.subscriptions.next ∧ db.Kept tradeNo id db' ∧
      ∃ a, db'.account tradeNo = some a ∧ EventEffect env e (db.accountOf order) a := by
  unfold recordAccess at h
  split at h
  · rename_i hgrs
    obtain ⟨_, hrec, h⟩ := bind_eq_ok.1 h
    obtain ⟨periods, rfl⟩ := recordWaffoPancakePeriod_eq_ok hrec
    obtain ⟨hkt, hrcs, a, hacc, heff⟩ := applyWaffoPancakePeriod_effect
      (show ({ db with periods } : Db).findOrder tradeNo = _ from hf) hn
      (hgrs.elim hper fun h => h) h
    exact ⟨hkt.next, ⟨hrcs.receipts, hrcs.found⟩, a, hacc, heff⟩
  · rename_i hpay
    obtain ⟨⟩ := pure_eq_ok.1 h
    exact ⟨le_rfl, ⟨rfl, order, hf⟩, _, db.account_of_findOrder hf,
      .money rfl (not_not.1 (not_or.1 hpay).1)⟩

omit hf hn in
theorem Order.bound_eq (order : Order) (e : LifecycleEvent) :
    ∃ provider, order.bound e = { order with providerSubscriptionId := provider } := by
  unfold bound
  split
  · exact ⟨_, rfl⟩
  · exact ⟨order.providerSubscriptionId, rfl⟩

/-- **What an event does to the receipts and the account.** -/
theorem recordWaffoPancakeSubscriptionEvent_effect {event : LifecycleEvent} {changed : Bool}
    (h : recordWaffoPancakeSubscriptionEvent env tradeNo event db = .ok (changed, db')) :
    db.subscriptions.next ≤ db'.subscriptions.next ∧ db.receipts.Grows id db'.receipts ∧
      (∃ order', db'.findOrder tradeNo = some (id, order')) ∧
      ∃ a, db'.account tradeNo = some a ∧ EventEffect env event (db.accountOf order) a := by
  obtain ⟨_, hcp, h⟩ := bind_eq_ok.1 h
  have hpos : 0 ≤ event.trimmed.withScopedId.amountMicros := by
    obtain ⟨-, -, -, -, hpos, -⟩ := require_eq_ok.1 hcp
    simp only [LifecycleEvent.withScopedId]
    exact hpos.le
  have hper : ¬event.trimmed.withScopedId.IsPayment → event.trimmed.withScopedId.HasPeriod :=
    (require_eq_ok.1 hcp).2.hasPeriod
  obtain ⟨hty, hsta, hend, htm⟩ := event.scoped_same
  generalize event.trimmed.withScopedId = e at h hpos hper hty hsta hend htm
  rw [hf, orFail_some, ok_bind] at h
  simp only [eq_ok] at h
  obtain ⟨_, -, -, -, -, ⟨_, order₁, db₁⟩, hmon, ⟨_, _⟩, hacs, -, rfl⟩ := h
  obtain ⟨_, hbou⟩ := order.bound_eq e
  have hbou' : (order.bound e).access = order.access := by
    rw [hbou]
    rfl
  have hnm : (order.bound e).tradeNo = order.tradeNo := by rw [hbou]
  obtain ⟨⟨hf₁, hacs₁, hsub, -⟩, hgr⟩ := recordMoney_kept hpos (Db.findOrder_saveOrder hf hnm) hmon
  have hs : order₁.access = order.access := hacs₁.trans hbou'
  have hv : db₁.accountOf order₁ = ⟨order₁, (db.accountOf order).sub⟩ := by
    simp only [Db.accountOf, access_userSubscriptionId hs, hsub]
    rfl
  have hn₁ : db₁.subscriptions.next = db.subscriptions.next := congrArg Table.next hsub
  obtain ⟨hle, ⟨hrcs, hf₂⟩, a, hacc, heff⟩ := recordAccess_effect hf₁ (hn₁ ▸ hn) hper hacs
  rw [hv] at heff
  rw [← hrcs] at hgr
  exact ⟨hn₁ ▸ hle, hgr, hf₂, a, hacc, (heff.of_access hs).congr hty hsta hend htm⟩

/-! ## States and refunds -/

omit hn in
/-- **What a change of state does to the account.** -/
theorem updateSubscriptionProviderState_effect {c : StateChange}
    (h : updateSubscriptionProviderState env tradeNo c db = .ok db') :
    db'.subscriptions.next = db.subscriptions.next ∧ db.Kept tradeNo id db' ∧
      ∃ a, db'.account tradeNo = some a ∧ StateEffect env c (db.accountOf order) a := by
  obtain ⟨_, h⟩ := of_bind h
  rw [hf, orFail_some, ok_bind] at h
  obtain ⟨_, h⟩ := of_bind h
  obtain ⟨_, h⟩ := of_bind h
  split at h
  · rename_i hsta
    obtain rfl := pure_eq_ok.1 h
    exact ⟨rfl, ⟨rfl, order, hf⟩, _, db.account_of_findOrder hf, .stale hsta⟩
  · rename_i hsta
    have hsav := db.account_saveOrder (order.withState c) hf (order.withState_tradeNo c)
    have hf' : (db.saveOrder id (order.withState c)).findOrder tradeNo =
        some (id, order.withState c) := Db.findOrder_saveOrder hf (order.withState_tradeNo c)
    simp only [] at h
    split at h
    · rename_i hpla
      obtain rfl := pure_eq_ok.1 h
      exact ⟨rfl, ⟨rfl, _, hf'⟩, _, hsav, .stored hsta hpla⟩
    · rename_i hpla
      obtain ⟨htm, hne⟩ := not_or.1 hpla
      obtain ⟨⟨sub, _⟩, hlock, h⟩ := bind_eq_ok.1 h
      obtain ⟨-, hg, -⟩ := lockUserSubscription_eq_ok.1 hlock
      have hgro := downgradeUserGroup_eq_ok h
      have hv : db.accountOf order = ⟨order, some sub⟩ := accountOf_of_get hne hg
      refine ⟨hgro.next, ⟨hgro.receipts, _, hgro.findOrder.trans hf'⟩, _,
        hgro.account.trans (db.account_saved hf rfl rfl hne hg), ?_⟩
      rw [hv]
      exact .cancelled hsta (Bool.of_not_eq_false htm)

end

variable {r : RefundRequest} {p : PaymentEvent} {refunded quota : ℤ}

theorem RefundRequest.normalize_eq_ok {r' : RefundRequest} (h : r.normalize = .ok r') :
    r' = r.trimmed := by
  obtain ⟨_, h⟩ := of_bind h
  obtain ⟨_, h⟩ := of_bind h
  exact (pure_eq_ok.1 h).symm

theorem restoreGroup_eq_ok (h : restoreGroup env sid sub db = .ok db') :
    db.SameButGroups db' := by
  unfold restoreGroup at h
  split at h
  · exact downgradeUserGroup_eq_ok h
  · rw [← pure_eq_ok.1 h]
    exact .refl db

/-- The payment that a request is for. -/
def Db.paymentFor (db : Db) (id : ℕ) (r : RefundRequest) : Option (ℕ × PaymentEvent) :=
  db.paymentEvents.first? fun _ p => p.orderId = id ∧ p.paymentProvider = r.paymentProvider ∧
    p.providerTransactionId = r.providerTransactionId

/-- What a refund did to the account: nothing, or it took back quota for the payment of the current
period. -/
inductive QuotaEffect (env : Env) (p : PaymentEvent) (refunded quota : ℤ) : Account → Account → Prop
  | none {a : Account} (hquota : quota = 0) : QuotaEffect env p refunded quota a a
  | revoked {o o' : Order} {s : UserSubscription} {plan : Plan}
      (hplan : o.planSnapshot = .frozen plan) (hcurrent : o.CurrentPayment p)
      (hperiod : 0 < p.periodStart ∧ p.periodStart < p.periodEnd)
      (horder : o' = { o with
        refundedAmountMicros := refunded
        refundedQuota := o.refundedQuota + quota })
      (hquota : quota = s.amountTotal - (revokedSubscription env plan p refunded s).amountTotal) :
      QuotaEffect env p refunded quota ⟨o, some s⟩
        ⟨o', some (revokedSubscription env plan p refunded s)⟩

/-- What a request that was not refused did, for the payment `p` under the key `pid`. -/
inductive RefundOutcome (env : Env) (r : RefundRequest) (tradeNo : String) (id pid : ℕ)
    (p : PaymentEvent) (db db' : Db) : Prop
  | replayed (hbooked : db.receipts.Booked r.paymentProvider r.providerEventId) (hdb : db' = db)
  | applied (row : PaymentRefund) (a a' : Account)
      (hfresh : ¬db.receipts.Booked r.paymentProvider r.providerEventId)
      (hle : db.receipts.refunded pid + r.amountMicros ≤ p.settlementAmountMicros)
      (hpid : row.paymentEventId = pid) (hamount : row.amountMicros = r.amountMicros)
      (hprovider : row.paymentProvider = r.paymentProvider)
      (hevent : row.providerEventId = r.providerEventId)
      (hreceipts : db'.receipts = { db.receipts with refunds := db.refunds.insert row })
      (hfound : ∃ order', db'.findOrder tradeNo = some (id, order'))
      (ha : db.account tradeNo = some a) (ha' : db'.account tradeNo = some a')
      (heffect : QuotaEffect env p (db.receipts.refunded pid + r.amountMicros) row.quotaRevoked a a')

theorem subscriptionRefundHasInlinePeriod_eq_true
    (h : subscriptionRefundHasInlinePeriod db p = .ok true) :
    0 < p.periodStart ∧ p.periodStart < p.periodEnd := by
  unfold subscriptionRefundHasInlinePeriod at h
  split at h
  · cases pure_eq_ok.1 h
  · rename_i hper
    obtain ⟨hsta, hend⟩ := not_or.1 hper
    exact ⟨not_le.1 hsta, not_le.1 hend⟩

/-- A request is a replay only of one that is booked, and the same event is not booked twice. -/
theorem subscriptionRefundReplay_eq_ok {pid : ℕ} {replayed : Bool}
    (h : subscriptionRefundReplay db id order pid r = .ok replayed) :
    replayed = true ↔ db.receipts.Booked r.paymentProvider r.providerEventId := by
  unfold subscriptionRefundReplay at h
  split at h
  · rename_i hn
    obtain rfl := pure_eq_ok.1 h
    refine ⟨nofun, fun hbk => ?_⟩
    obtain ⟨i, _, hg, hr⟩ := any_iff.1 hbk
    exact absurd hr (first?_eq_none hn hg)
  · rename_i i previous hsm
    obtain ⟨_, h⟩ := of_bind h
    obtain ⟨_, h⟩ := of_bind h
    obtain ⟨_, h⟩ := of_bind h
    obtain rfl := pure_eq_ok.1 h
    exact ⟨fun _ => any_iff.2 ⟨i, previous, first?_eq_some hsm⟩, fun _ => rfl⟩

theorem revokeSubscriptionPaymentQuota_eq_ok
    (hf : db.findOrder tradeNo = some (id, order)) (hcur : order.CurrentPayment p)
    (hper : 0 < p.periodStart ∧ p.periodStart < p.periodEnd)
    (h : revokeSubscriptionPaymentQuota env id order p refunded db = .ok (quota, db')) :
    db'.subscriptions.next = db.subscriptions.next ∧ db.Kept tradeNo id db' ∧
      ∃ a', db'.account tradeNo = some a' ∧ QuotaEffect env p refunded quota (db.accountOf order) a' := by
  unfold revokeSubscriptionPaymentQuota at h
  split at h
  · rename_i plan hpl
    simp only [eq_ok] at h
    obtain ⟨-, ⟨_, _⟩, hlock, _, hgrou, rfl, rfl⟩ := h
    obtain ⟨hpos, hg, -⟩ := lockUserSubscription_eq_ok.1 hlock
    have hgro := restoreGroup_eq_ok hgrou
    refine ⟨hgro.next, ⟨hgro.receipts, _, hgro.findOrder.trans (Db.findOrder_saveOrder hf rfl)⟩, _,
      hgro.account.trans (db.account_saved hf rfl rfl hpos.ne' hg), ?_⟩
    rw [accountOf_of_get hpos.ne' hg]
    exact .revoked hpl hcur hper rfl rfl
  · cases h

/-- The row that books a refund. -/
def RefundRequest.row (r : RefundRequest) (orderId paymentEventId : ℕ) (quotaRevoked : ℤ) (db : Db) :
    PaymentRefund where
  orderId
  paymentEventId
  paymentProvider := r.paymentProvider
  providerEventId := r.providerEventId
  currency := r.currency
  amountMicros := r.amountMicros
  quotaRevoked
  ledgerEntryId := db.ledger.next

/-- **What a request that was not refused did.** -/
theorem applySubscriptionPaymentRefund_outcome {result : Recharge.RefundResult}
    (hf : db.findOrder tradeNo = some (id, order)) (htra : r.trimmed.tradeNo = tradeNo)
    (h : applySubscriptionPaymentRefund env r db = .ok (result, db')) :
    db'.subscriptions.next = db.subscriptions.next ∧
      ∃ pid p, db.paymentFor id r.trimmed = some (pid, p) ∧
      RefundOutcome env r.trimmed tradeNo id pid p db db' ∧
      (¬order.CurrentPayment p → db'.account tradeNo = db.account tradeNo) := by
  obtain ⟨r', hr, h⟩ := bind_eq_ok.1 h
  rw [RefundRequest.normalize_eq_ok hr, htra, hf, orFail_some, ok_bind] at h
  generalize r.trimmed = r at *
  obtain ⟨_, h⟩ := of_bind h
  obtain ⟨⟨pid, p⟩, hpay, h⟩ := bind_eq_ok.1 h
  obtain ⟨_, h⟩ := of_bind h
  obtain ⟨_, hrepl, h⟩ := bind_eq_ok.1 h
  have hbk := subscriptionRefundReplay_eq_ok hrepl
  split at h
  · rename_i hrep
    obtain ⟨⟩ := pure_eq_ok.1 h
    exact ⟨rfl, pid, p, orFail_eq_ok.1 hpay, .replayed (hbk.1 hrep) rfl, fun _ => rfl⟩
  · rename_i hrep
    have hfr := hbk.not.1 hrep
    obtain ⟨_, h⟩ := of_bind h
    obtain ⟨⟨quotaRevoked, db₁⟩, hrev, h⟩ := bind_eq_ok.1 h
    obtain ⟨_, hins, h⟩ := bind_eq_ok.1 h
    obtain ⟨⟩ := pure_eq_ok.1 h
    obtain ⟨_, -, hins⟩ := bind_eq_ok.1 hins
    obtain rfl := pure_eq_ok.1 hins
    obtain ⟨_, hamt, hrev⟩ := bind_eq_ok.1 hrev
    obtain ⟨-, -, hle⟩ := require_eq_ok.1 hamt
    have hle : db.receipts.refunded pid + r.amountMicros ≤ p.settlementAmountMicros :=
      le_sub_iff_add_le'.1 hle
    obtain ⟨_, hinl, hrev⟩ := bind_eq_ok.1 hrev
    have hacc := db.account_of_findOrder hf
    split at hrev
    · rename_i hcur
      obtain ⟨hper, hcur⟩ := hcur
      rw [hper] at hinl
      obtain ⟨_, hrev⟩ := of_bind hrev
      obtain ⟨hn, ⟨hrcs, hf'⟩, a', ha', heff⟩ := revokeSubscriptionPaymentQuota_eq_ok hf
        hcur (subscriptionRefundHasInlinePeriod_eq_true hinl) hrev
      refine ⟨hn, pid, p, orFail_eq_ok.1 hpay, .applied (r.row id pid quotaRevoked db₁) _ a'
        hfr hle rfl rfl rfl rfl ?_ hf' hacc ha' heff, fun hnot => absurd hcur hnot⟩
      obtain ⟨href, hpaym⟩ := Receipts.mk.inj hrcs
      show (⟨db₁.refunds.insert _, db₁.paymentEvents⟩ : Receipts) = ⟨db.refunds.insert _, db.paymentEvents⟩
      rw [href, hpaym]
      rfl
    · obtain ⟨⟩ := pure_eq_ok.1 hrev
      exact ⟨rfl, pid, p, orFail_eq_ok.1 hpay, .applied (r.row id pid 0 db) _ _ hfr hle rfl rfl
        rfl rfl rfl ⟨order, hf⟩ hacc hacc (.none rfl), fun _ => rfl⟩

theorem QuotaEffect.refundEffect {a a' : Account}
    (h : QuotaEffect env p refunded quota a a') : RefundEffect env a a' := by
  cases h with
  | none => exact .booked
  | revoked hpl hcur _ hord =>
    subst hord
    exact .revoked hpl hcur

/-! ## Steps -/

/-- A step of a run: an event of the provider about the order, a refund of one of its payments, or
something that others do. -/
inductive AccountStep
  | event (env : Env) (e : LifecycleEvent)
  | state (env : Env) (c : StateChange)
  | refund (env : Env) (r : RefundRequest)
  | other (db : Db)

namespace AccountStep

/-- A transaction that fails is rolled back. -/
def exec (tradeNo : String) : AccountStep → Db → Db
  | .event env e, db => commit (recordWaffoPancakeSubscriptionEvent env tradeNo e db) db
  | .state env c, db => (updateSubscriptionProviderState env tradeNo c db).toOption.getD db
  | .refund env r, db => commit (applySubscriptionPaymentRefund env r db) db
  | .other db', _ => db'

/-- The lifecycle event or payment that a step delivers. -/
def delivery : AccountStep → Option LifecycleEvent
  | .event _ e => some e
  | _ => none

/-- The step is an event, a state or a refund of the order. -/
def About (tradeNo : String) : AccountStep → Prop
  | .refund _ r => r.trimmed.tradeNo = tradeNo
  | .other _ => False
  | _ => True

/-- What a step that is not refused does to the account. -/
def Effect : AccountStep → Account → Account → Prop
  | .event env e => EventEffect env e
  | .state env c => StateEffect env c
  | .refund env _ => RefundEffect env
  | .other _ => fun _ _ => False

/-- A step about the order. -/
theorem exec_effect {a : Account} {i : AccountStep} (hab : i.About tradeNo)
    (hacc : db.account tradeNo = some a) (hn : 0 < db.subscriptions.next) :
    0 < (i.exec tradeNo db).subscriptions.next ∧
      ∃ a', (i.exec tradeNo db).account tradeNo = some a' ∧ (a' = a ∨ i.Effect a a') := by
  obtain ⟨⟨id, _⟩, hf, rfl⟩ := map_eq_some_iff.1 hacc
  cases i with
  | event env e =>
    rw [exec]
    cases h : recordWaffoPancakeSubscriptionEvent env tradeNo e db with
    | error => exact ⟨hn, _, hacc, .inl rfl⟩
    | ok =>
      obtain ⟨hle, -, -, a', hacc', heff⟩ := recordWaffoPancakeSubscriptionEvent_effect hf hn h
      exact ⟨hn.trans_le hle, a', hacc', .inr heff⟩
  | state env c =>
    rw [exec]
    cases h : updateSubscriptionProviderState env tradeNo c db with
    | error => exact ⟨hn, _, hacc, .inl rfl⟩
    | ok =>
      obtain ⟨hn', -, a', hacc', heff⟩ := updateSubscriptionProviderState_effect hf h
      exact ⟨hn.trans_eq hn'.symm, a', hacc', .inr heff⟩
  | refund env r =>
    rw [exec]
    cases h : applySubscriptionPaymentRefund env r db with
    | error => exact ⟨hn, _, hacc, .inl rfl⟩
    | ok =>
      obtain ⟨hn', _, p, -, hout, -⟩ := applySubscriptionPaymentRefund_outcome hf hab h
      refine ⟨hn.trans_eq hn'.symm, ?_⟩
      cases hout with
      | replayed _ hdb =>
        rw [commit, hdb]
        exact ⟨_, hacc, .inl rfl⟩
      | applied _ _ a' _ _ _ _ _ _ _ _ hb ha' heff =>
        obtain rfl := mem_unique hacc hb
        exact ⟨a', ha', .inr heff.refundEffect⟩
  | other => exact hab.elim

end AccountStep

end LmmApi.Recurring
