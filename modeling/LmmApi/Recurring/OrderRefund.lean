import LmmApi.Lib.Delivery
import LmmApi.Recharge.Refund
import LmmApi.Recurring.Grant

/-!
# Refunds of subscription orders

`ApplyPaymentRefund` of a subscription order takes back from the subscription the part of the grant
that the refunded amount is of the amount paid. Quota that was used stays, so the total is lowered
at most to it; the order, however, records the part that was asked for, and reports it as taken
back.

As long as the part fits into the unused quota the grant is conserved: what is left and what was
taken back add up to it. A refund that does not fit breaks this, and the next one takes its share of
a sum that is greater than the grant.
-/

namespace LmmApi.Recurring

open Guarded Go Attribution Option
open Recharge

/-! ## The refund -/

/-- `NormalizeWaffoPancakeProductType` of the plan as it was bought: it was bought once. -/
def Snapshot.OneTime : Snapshot → Prop
  | .frozen plan => equalFold (trimSpace plan.waffoPancakeProductType) "one_time" = true
  | _ => False

instance : DecidablePred Snapshot.OneTime
  | .frozen _ => inferInstanceAs (Decidable (_ = true))
  | .blank | .malformed => inferInstanceAs (Decidable False)

def subscriptionRefundNeedsPaymentIdentity (order : Order) : Prop :=
  order.providerSubscriptionId ≠ "" ∨ order.currentPeriodStart ≠ 0 ∨ order.currentPeriodEnd ≠ 0 ∨
    ¬order.planSnapshot.OneTime
  deriving Decidable

/-- The receipt of the order with the greatest end of its period, the later one of two. A period
that is NULL comes last, as in MySQL and SQLite. -/
def Db.latestReceipt (db : Db) (orderId : ℕ) : Option PaymentEvent :=
  db.paymentEvents.rows.foldl (fun latest row =>
    if row.2.orderId = orderId ∧ ∀ e ∈ latest, e.periodEnd ≤ row.2.periodEnd then some row.2
    else latest) none

/-- `subscriptionRefundAlreadyAppliedTx`: the refund was booked before the renewal that the order
has now. -/
def subscriptionRefundAlreadyApplied (db : Db) (orderId : ℕ) (ledger : LedgerEntry) : Prop :=
  2 ≤ db.paymentEvents.count (fun _ e => e.orderId = orderId) ∧ 0 < ledger.occurredAt ∧
    ∃ latest ∈ db.latestReceipt orderId, ledger.occurredAt ≤ latest.createdTime
  deriving Decidable

/-- The event is in the ledger, and its refund was applied to the order. -/
def Order.AlreadyApplied (order : Order) (id : ℕ) (db : Db) (r : RefundCall) : Prop :=
  ∃ l ∈ r.recorded db.ledger,
    0 < order.refundedAmountMicros ∨ subscriptionRefundAlreadyApplied db id l
  deriving Decidable

section

variable (moneyToMicros : ℚ → ℤ) (env : Env)

/-- The amount that was paid for the order. The fallback of old orders is a product in `float64`. -/
def Order.paidMicros (order : Order) : ℤ :=
  if order.expectedAmountMicros ≤ 0 then moneyToMicros order.money else order.expectedAmountMicros

/-- The quota that a refund asks for: none for unlimited quota. -/
def Order.refundQuota (order : Order) (sub : UserSubscription) (appliedAmount : ℤ) : ℤ :=
  let paidMicros := order.paidMicros moneyToMicros
  if 0 < paidMicros ∧ 0 < sub.amountTotal then
    let refundBaseQuota := sub.amountTotal + order.refundedQuota
    let targetRevoked := proportionalRefundTarget env.div refundBaseQuota paidMicros
      (order.refundedAmountMicros + appliedAmount)
    (if targetRevoked < order.refundedQuota then order.refundedQuota else targetRevoked) -
      order.refundedQuota
  else 0

/-- The subscription after quota was taken back. Quota that was used stays. -/
def withoutQuota (refundQuota : ℤ) (sub : UserSubscription) : UserSubscription :=
  let newTotal := if sub.amountTotal - refundQuota < sub.amountUsed then sub.amountUsed
    else sub.amountTotal - refundQuota
  { sub with
    amountTotal := newTotal
    status := if newTotal = sub.amountUsed ∧ sub.status = .active then .cancelled else sub.status
    updatedAt := env.now }

/-- The quota that is taken back for an amount, and the tables after it. -/
def refundOrder (id : ℕ) (order : Order) (appliedAmount : ℤ) (db : Db) :
    Except Failure (ℤ × Db) := do
  let refunded := { order with refundedAmountMicros := order.refundedAmountMicros + appliedAmount }
  if 0 < order.userSubscriptionId then
    let sub ← orFail (db.subscriptions.get? order.userSubscriptionId) .recordNotFound
    if 0 < order.paidMicros moneyToMicros ∧ 0 < sub.amountTotal then
      let refundQuota := order.refundQuota moneyToMicros env sub appliedAmount
      return (refundQuota,
        (db.saveSubscription order.userSubscriptionId (withoutQuota env refundQuota sub)).saveOrder id
          { refunded with refundedQuota := order.refundedQuota + refundQuota })
    else return (0, db.saveOrder id refunded)
  else return (0, db.saveOrder id refunded)

/-- `ApplyPaymentRefund` of a subscription order. -/
def applyOrderRefund (call : RefundCall) (db : Db) : Except Failure (RefundResult × Db) := do
  let r := call.trimmed
  require .invalidData r.Complete
  let (id, order) ← orFail (db.findOrder r.tradeNo) (.other "refund order disappeared")
  require (.other s!"refund order is not a settled {r.paymentProvider} subscription")
    (order.status = .success ∧ order.paymentProvider = r.paymentProvider)
  require .refundPaymentRequired ¬(r.paymentProvider = paymentProviderWaffoPancake ∧
    subscriptionRefundNeedsPaymentIdentity order)
  require .refundOrderConflict (∀ l ∈ r.recorded db.ledger, r.Binds order.userId l)
  require (.evidenceConflict "subscription refund currency mismatch")
    (toUpper (trimSpace order.settlementCurrency) = "" ∨
      toUpper (trimSpace order.settlementCurrency) = r.currency)
  if order.AlreadyApplied id db r then
    return ({ userId := order.userId, quotaDebited := 0, created := false }, db)
  else
    let appliedAmount := r.appliedAmount db.ledger
    let remaining := order.paidMicros moneyToMicros - order.refundedAmountMicros
    require .refundAmountInvalid (0 < order.paidMicros moneyToMicros →
      ¬remaining < 0 ∧ ¬remaining < appliedAmount)
    let (quotaDebited, db') ← refundOrder moneyToMicros env id order appliedAmount db
    let ledger ← orFail (r.book order.userId env.now db.ledger) (.other "finance entry is invalid")
    return ({ userId := order.userId, quotaDebited, created := (r.recorded db.ledger).isNone },
      { db' with ledger })

end

/-! ## What a refund does to the grant -/

/-- An order with its subscription. -/
structure Granted where
  id : ℕ
  order : Order
  sub : UserSubscription
  deriving DecidableEq

/-- The order of a trade number and its subscription. -/
def Db.granted (db : Db) (tradeNo : String) : Option Granted :=
  (db.findOrder tradeNo).bind fun x =>
    (db.subscriptions.get? x.2.userSubscriptionId).map fun sub => ⟨x.1, x.2, sub⟩

variable {moneyToMicros : ℚ → ℤ} {env : Env} {db db' : Db} {tradeNo : String} {g : Granted}

theorem Db.granted_eq_some : db.granted tradeNo = some g ↔
    db.findOrder tradeNo = some (g.id, g.order) ∧
      db.subscriptions.get? g.order.userSubscriptionId = some g.sub := by
  obtain ⟨id, order, sub⟩ := g
  simp only [granted, bind_eq_some_iff, map_eq_some_iff, Granted.mk.injEq, Prod.exists]
  constructor
  · rintro ⟨i, o, hf, s, hg, rfl, rfl, rfl⟩
    exact ⟨hf, hg⟩
  · rintro ⟨hf, hg⟩
    exact ⟨id, order, hf, sub, hg, rfl, rfl, rfl⟩

/-- The quota that a call asks for. -/
def Granted.revocation (moneyToMicros : ℚ → ℤ) (env : Env) (g : Granted) (db : Db)
    (r : RefundCall) : ℤ :=
  if g.order.AlreadyApplied g.id db r then 0
  else g.order.refundQuota moneyToMicros env g.sub (r.appliedAmount db.ledger)

/-- What a refund of `quota` does: the order records it, and the total is lowered by it, at most to
what was used. -/
structure Granted.RefundedBy (g : Granted) (quota : ℤ) (g' : Granted) : Prop where
  id : g'.id = g.id
  subscription : g'.order.userSubscriptionId = g.order.userSubscriptionId
  recorded : g'.order.refundedQuota = g.order.refundedQuota + quota
  used : g'.sub.amountUsed = g.sub.amountUsed
  total : g'.sub.amountTotal = max (g.sub.amountTotal - quota) g.sub.amountUsed

theorem Granted.RefundedBy.refl (h : g.sub.amountUsed ≤ g.sub.amountTotal) : g.RefundedBy 0 g := by
  refine ⟨rfl, rfl, (add_zero _).symm, rfl, ?_⟩
  rw [sub_zero, max_eq_left h]

theorem Db.granted_saveOrder {id : ℕ} {order order' : Order} {sub : UserSubscription}
    (h : db.granted tradeNo = some ⟨id, order, sub⟩) (hnm : order'.tradeNo = order.tradeNo)
    (hsub : order'.userSubscriptionId = order.userSubscriptionId) :
    (db.saveOrder id order').granted tradeNo = some ⟨id, order', sub⟩ := by
  obtain ⟨hf, hg⟩ := granted_eq_some.1 h
  refine granted_eq_some.2 ⟨findOrder_saveOrder hf hnm, ?_⟩
  rw [hsub]
  exact hg

theorem Db.granted_saveSubscription {sub : UserSubscription} (h : db.granted tradeNo = some g) :
    (db.saveSubscription g.order.userSubscriptionId sub).granted tradeNo =
      some ⟨g.id, g.order, sub⟩ := by
  obtain ⟨hf, hg⟩ := granted_eq_some.1 h
  refine granted_eq_some.2 ⟨hf, ?_⟩
  rw [saveSubscription, Table.get?_modify_self, hg]
  rfl

theorem refundOrder_eq_ok {quota amount : ℤ} (hf : db.granted tradeNo = some g)
    (hsub : 0 < g.order.userSubscriptionId) (hud : g.sub.amountUsed ≤ g.sub.amountTotal)
    (h : refundOrder moneyToMicros env g.id g.order amount db = .ok (quota, db')) :
    quota = g.order.refundQuota moneyToMicros env g.sub amount ∧
      ∃ g', db'.granted tradeNo = some g' ∧ g.RefundedBy quota g' := by
  obtain ⟨-, hg⟩ := Db.granted_eq_some.1 hf
  simp only [refundOrder] at h
  rw [if_pos hsub, hg, orFail_some, ok_bind] at h
  split at h
  · obtain ⟨⟩ := pure_eq_ok.1 h
    refine ⟨rfl, _, Db.granted_saveOrder (Db.granted_saveSubscription hf) rfl rfl, ?_⟩
    refine ⟨rfl, rfl, rfl, rfl, ?_⟩
    simp only [withoutQuota]
    omega
  · rename_i hn
    obtain ⟨⟩ := pure_eq_ok.1 h
    refine ⟨(if_neg hn).symm, _, Db.granted_saveOrder hf rfl rfl, ?_⟩
    obtain ⟨hid, -, hrec, hud', htot⟩ := Granted.RefundedBy.refl hud
    exact ⟨hid, rfl, hrec, hud', htot⟩

/-- **What a call does** to the order it is for. -/
theorem applyOrderRefund_eq_ok {call : RefundCall} {result : RefundResult}
    (hf : db.granted call.trimmed.tradeNo = some g) (hsub : 0 < g.order.userSubscriptionId)
    (hud : g.sub.amountUsed ≤ g.sub.amountTotal)
    (h : applyOrderRefund moneyToMicros env call db = .ok (result, db')) :
    result.quotaDebited = g.revocation moneyToMicros env db call.trimmed ∧
      ∃ g', db'.granted call.trimmed.tradeNo = some g' ∧ g.RefundedBy result.quotaDebited g' := by
  obtain ⟨_, h⟩ := of_bind h
  obtain ⟨⟨id, _⟩, hord, h⟩ := bind_eq_ok.1 h
  rw [(Db.granted_eq_some.1 hf).1] at hord
  obtain ⟨⟩ := Except.ok.inj hord
  simp only [eq_ok] at h
  obtain ⟨-, -, -, -, h⟩ := h
  rw [Granted.revocation]
  split at h
  · rename_i happ
    obtain ⟨⟩ := pure_eq_ok.1 h
    exact ⟨(if_pos happ).symm, g, hf, .refl hud⟩
  · rename_i happ
    simp only [eq_ok] at h
    obtain ⟨-, ⟨_, _⟩, hrf, _, -, rfl, rfl⟩ := h
    obtain ⟨hquo, g', hf', heff⟩ := refundOrder_eq_ok hf hsub hud hrf
    exact ⟨hquo.trans (if_neg happ).symm, g', hf', heff⟩

/-! ## Runs -/

/-- A call of `applyOrderRefund` for the order, or what others do: the use of quota, and anything
that leaves the total and the record of refunds as they are. -/
inductive GrantStep
  | refund (env : Env) (call : RefundCall)
  | other (db : Db)

section

variable (moneyToMicros : ℚ → ℤ) (tradeNo : String)

def GrantStep.exec : GrantStep → Db → Db
  | .refund env call, db => commit (applyOrderRefund moneyToMicros env call db) db
  | .other db', _ => db'

/-- The steps in question: calls for the order, and changes by others that keep its refunds, the
total of its subscription, and the use within the total. -/
def GrantStep.Admissible : GrantStep → Db → Prop
  | .refund _ call, _ => call.trimmed.tradeNo = tradeNo
  | .other db', db => ∀ g ∈ db.granted tradeNo, ∃ g' ∈ db'.granted tradeNo,
      g'.order.userSubscriptionId = g.order.userSubscriptionId ∧
      g'.order.refundedQuota = g.order.refundedQuota ∧ g'.sub.amountTotal = g.sub.amountTotal ∧
      g'.sub.amountUsed ≤ g'.sub.amountTotal

/-- The quota that a call asks for is unused. -/
def GrantStep.Fits : GrantStep → Db → Prop
  | .refund env call, db => ∀ g ∈ db.granted tradeNo,
      g.revocation moneyToMicros env db call.trimmed ≤ g.sub.amountTotal - g.sub.amountUsed
  | .other _, _ => True

instance : ∀ i db, Decidable (GrantStep.Admissible tradeNo i db)
  | .refund _ _, _ => inferInstanceAs (Decidable (_ = _))
  | .other db', db => inferInstanceAs (Decidable (∀ g ∈ db.granted tradeNo,
      ∃ g' ∈ db'.granted tradeNo, _ ∧ _ ∧ _ ∧ _))

instance : ∀ i db, Decidable (GrantStep.Fits moneyToMicros tradeNo i db)
  | .refund _ _, db => inferInstanceAs (Decidable (∀ g ∈ db.granted tradeNo, _))
  | .other _, _ => inferInstanceAs (Decidable True)

/-- The order has a subscription whose use is within its total. -/
structure Db.Covered (db : Db) (g : Granted) : Prop where
  found : db.granted tradeNo = some g
  subscription : 0 < g.order.userSubscriptionId
  used : g.sub.amountUsed ≤ g.sub.amountTotal

end

/-- What a step does to the order: nothing that matters, or a refund of what the call asks for. -/
theorem GrantStep.effect {i : GrantStep} (h : db.Covered tradeNo g) (hok : i.Admissible tradeNo db) :
    ∃ g', (i.exec moneyToMicros db).Covered tradeNo g' ∧
      ((g'.sub.amountTotal = g.sub.amountTotal ∧ g'.order.refundedQuota = g.order.refundedQuota) ∨
        ∃ env call, i = .refund env call ∧
          g.RefundedBy (g.revocation moneyToMicros env db call.trimmed) g') := by
  cases i with
  | refund env call =>
    obtain rfl : call.trimmed.tradeNo = tradeNo := hok
    rw [exec]
    cases hrun : applyOrderRefund moneyToMicros env call db with
    | error => exact ⟨g, h, .inl ⟨rfl, rfl⟩⟩
    | ok =>
      obtain ⟨hquo, g', hf, heff⟩ := applyOrderRefund_eq_ok h.found h.subscription h.used hrun
      refine ⟨g', ⟨hf, heff.subscription ▸ h.subscription, ?_⟩, .inr ⟨env, call, rfl, ?_⟩⟩
      · rw [heff.used, heff.total]
        exact le_max_right _ _
      · rwa [← hquo]
  | other =>
    obtain ⟨g', hf, hsub, hquo, htot, hud⟩ := hok g h.found
    exact ⟨g', ⟨hf, hsub ▸ h.subscription, hud⟩, .inl ⟨htot, hquo⟩⟩

/-- What is left of the grant and what was taken back. -/
def Granted.sum (g : Granted) : ℤ := g.sub.amountTotal + g.order.refundedQuota

/-- A refund conserves the sum if and only if it fits. -/
theorem Granted.RefundedBy.sum_eq_iff {quota : ℤ} {g' : Granted} (h : g.RefundedBy quota g') :
    g'.sum = g.sum ↔ quota ≤ g.sub.amountTotal - g.sub.amountUsed := by
  rw [sum, sum, h.recorded, h.total]
  omega

section

variable {steps : List GrantStep} (h : db.Covered tradeNo g)
  (hss : Along (GrantStep.exec moneyToMicros) (GrantStep.Admissible tradeNo) db steps)
include h hss

theorem covered_run : ∃ g', (run (GrantStep.exec moneyToMicros) db steps).Covered tradeNo g' := by
  refine run_rule (P := fun db => ∃ g, db.Covered tradeNo g) (fun db i hok => ?_) ⟨g, h⟩ hss
  rintro ⟨g, h⟩
  obtain ⟨g', h', -⟩ := i.effect h hok
  exact ⟨g', h'⟩

theorem sum_run
    (hft : Along (GrantStep.exec moneyToMicros) (GrantStep.Fits moneyToMicros tradeNo) db steps) :
    ∃ g', (run (GrantStep.exec moneyToMicros) db steps).Covered tradeNo g' ∧ g'.sum = g.sum := by
  induction steps generalizing db g with
  | nil => exact ⟨g, h, rfl⟩
  | cons i _ ih =>
    obtain ⟨g', h', hc⟩ := i.effect h hss.1
    obtain ⟨g'', hend, hsum⟩ := ih h' hss.2 hft.2
    refine ⟨g'', hend, hsum.trans ?_⟩
    rcases hc with ⟨htot, hquo⟩ | ⟨_, _, rfl, heff⟩
    · rw [Granted.sum, Granted.sum, htot, hquo]
    · exact heff.sum_eq_iff.2 (hft.1 g h.found)

end

/-- **Refunds of a subscription order conserve its grant as long as they fit.** Along any run of
refunds of the order and use of its quota:

* the total is never less than what was used;
* if every refund asks for unused quota only, the total and the recorded refunds add up to the same at
  the end as at the beginning;
* a refund reports the amount by which it lowers the total, and conserves the sum, if and only if it asks
  for unused quota only. -/
theorem order_refunds_conserve_iff_fit {steps : List GrantStep} (h : db.Covered tradeNo g)
    (hsteps : Along (GrantStep.exec moneyToMicros) (GrantStep.Admissible tradeNo) db steps) :
    (∃ g' ∈ (run (GrantStep.exec moneyToMicros) db steps).granted tradeNo,
      g'.sub.amountUsed ≤ g'.sub.amountTotal ∧
      (Along (GrantStep.exec moneyToMicros) (GrantStep.Fits moneyToMicros tradeNo) db steps →
        g'.sum = g.sum)) ∧
    ∀ before env call after, steps = before ++ .refund env call :: after → ∀ result db',
      applyOrderRefund moneyToMicros env call (run (GrantStep.exec moneyToMicros) db before) =
        .ok (result, db') →
      ∃ g₁ ∈ (run (GrantStep.exec moneyToMicros) db before).granted tradeNo,
        ∃ g₂ ∈ db'.granted tradeNo,
          (result.quotaDebited = g₁.sub.amountTotal - g₂.sub.amountTotal ↔
            GrantStep.Fits moneyToMicros tradeNo (.refund env call)
              (run (GrantStep.exec moneyToMicros) db before)) ∧
          (g₂.sum = g₁.sum ↔
            GrantStep.Fits moneyToMicros tradeNo (.refund env call)
              (run (GrantStep.exec moneyToMicros) db before)) := by
  constructor
  · obtain ⟨g', hend⟩ := covered_run h hsteps
    refine ⟨g', hend.found, hend.used, fun hfits => ?_⟩
    obtain ⟨_, hend', hsum⟩ := sum_run h hsteps hfits
    obtain rfl := mem_unique hend.found hend'.found
    exact hsum
  · rintro before env call after rfl result db' hrun
    obtain ⟨hbefore, hcall, -⟩ := along_append.1 hsteps
    obtain ⟨g₁, hnow⟩ := covered_run h hbefore
    obtain rfl : call.trimmed.tradeNo = tradeNo := hcall
    obtain ⟨hquota, g₂, hfound, heffect⟩ :=
      applyOrderRefund_eq_ok hnow.found hnow.subscription hnow.used hrun
    have hfits : GrantStep.Fits moneyToMicros call.trimmed.tradeNo (.refund env call)
        (run (GrantStep.exec moneyToMicros) db before) ↔
        result.quotaDebited ≤ g₁.sub.amountTotal - g₁.sub.amountUsed := by
      rw [hquota, GrantStep.Fits, hnow.found]
      simp
    refine ⟨g₁, hnow.found, g₂, hfound, ?_, ?_⟩
    · rw [hfits, heffect.total]
      omega
    · rw [hfits]
      exact heffect.sum_eq_iff

/-! ### A plan that was bought once -/

/-- A plan with 100 units of quota for 100 millionths. -/
def oncePlan : Plan where
  quotaResetPeriod := "never"
  quotaResetCustomSeconds := 0
  id := 1
  priceAmount := 1 / 10000
  durationUnit := "month"
  durationValue := 1
  customSeconds := 0
  maxPurchasePerUser := 0
  upgradeGroup := ""
  downgradeGroup := ""
  totalAmount := 100
  allowWalletOverflow := none
  waffoPancakeProductType := "one_time"

/-- Its settled order. -/
def onceOrder : Order where
  userId := 1
  planId := 1
  money := 1 / 10000
  tradeNo := "S1"
  paymentMethod := "waffo_pancake"
  paymentProvider := "waffo_pancake"
  userSubscriptionId := 1
  status := .success
  planSnapshot := .frozen oncePlan
  expectedAmountMicros := 100
  settlementCurrency := "USD"

/-- The subscription with `used` units used. -/
def onceSubscription (amountTotal amountUsed : ℤ) : UserSubscription where
  userId := 1
  planId := 1
  amountTotal
  amountUsed
  quotaVersion := 0
  startTime := 0
  endTime := 3000000
  status := .active
  lastResetTime := 0
  nextResetTime := 0
  allowWalletOverflow := true
  upgradeGroup := ""
  prevUserGroup := ""
  downgradeGroup := ""
  updatedAt := 0

def onceDb (amountUsed : ℤ) : Db where
  users := Table.empty.insert ⟨"default", false⟩
  orders := Table.empty.insert onceOrder
  subscriptions := Table.empty.insert (onceSubscription 100 amountUsed)
  paymentEvents := Table.empty
  payments := Table.empty
  periods := Table.empty
  refunds := Table.empty
  ledger := Table.empty
  topUps := Table.empty

def onceRefund (providerEventId : String) (amountMicros : ℤ) : RefundCall where
  tradeNo := "S1"
  amountMicros
  providerEventId
  paymentMethod := "waffo_pancake"
  paymentProvider := "waffo_pancake"
  actorId := 1

/-- The clock, with no plans to look up. -/
def onceEnv : Env := ⟨1000, fun _ => none, 0, fun _ => 0, fun n d => n / d⟩

/-- A quarter is refunded, then more quota is used, and then 15 of 100 are refunded, after which all
that is left is used. -/
def onceSteps : List GrantStep :=
  [.refund onceEnv (onceRefund "re1" 25),
    .other ((GrantStep.exec (fun _ => 0) (.refund onceEnv (onceRefund "re1" 25)) (onceDb 30)).saveSubscription
      1 (onceSubscription 75 60)),
    .refund onceEnv (onceRefund "re2" 15)]

theorem order_refunds_conserve_once :
    ∃ g ∈ (run (GrantStep.exec fun _ => 0) (onceDb 30) onceSteps).granted "S1",
      g.sub.amountTotal = 60 ∧ g.order.refundedQuota = 40 ∧ g.sum = 100 := by
  have hcovered : (onceDb 30).Covered "S1" ⟨1, onceOrder, onceSubscription 100 30⟩ :=
    ⟨by decide +kernel, by decide, by decide⟩
  have hsteps : Along (GrantStep.exec fun _ => 0) (GrantStep.Admissible "S1") (onceDb 30) onceSteps := by
    decide +kernel
  obtain ⟨⟨g, hg, -, hsum⟩, -⟩ := order_refunds_conserve_iff_fit hcovered hsteps
  have hrows : ∀ g ∈ (run (GrantStep.exec fun _ => 0) (onceDb 30) onceSteps).granted "S1",
      g.sub.amountTotal = 60 ∧ g.order.refundedQuota = 40 := by
    decide +kernel
  exact ⟨g, hg, (hrows g hg).1, (hrows g hg).2, hsum (by decide +kernel)⟩

/-- A half is refunded although 80 of the 100 units were used: the total falls by 20 only, but 50
are reported and recorded, and the sum is 130 afterwards. -/
theorem order_refund_exceeds_unused :
    (applyOrderRefund (fun _ => 0) onceEnv (onceRefund "re1" 50) (onceDb 80)).map
        (fun out => (out.1.quotaDebited, (out.2.granted "S1").map fun g =>
          (g.sub.amountTotal, g.order.refundedQuota, g.sum))) =
      .ok (50, some (80, 50, 130)) := by
  decide +kernel

end LmmApi.Recurring
