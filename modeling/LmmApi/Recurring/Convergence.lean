import LmmApi.Lib.Timed
import LmmApi.Recurring.Accepted
import LmmApi.Recurring.NotRevived

/-!
# Lifecycle events in any order

The lifecycle events of an order are delivered in any order and any number of times. For events of
successive periods, signed in the order of the periods and not before their start, the period and
the quota at the end are those of the last period (`Tracks` is what carries the induction), and a
period that was delivered before resets nothing. Once a terminal state has been stored no event and
no state changes the subscription again, other than to cancel it.

The second part needs that periods are granted by signed events: the end of a subscription that a
terminal state has cut off is then not later than the time of this state, so a later terminal state
does not move it (`Account.Closed`).
-/

namespace LmmApi.Recurring

open Guarded Go Attribution List Option AccountStep
open Recharge (paymentProviderWaffoPancake)

variable {env : Env} {db db' : Db} {tradeNo : String} {order : Order} {plan : Plan} {a a' : Account}
  {e : LifecycleEvent} {events seen : List LifecycleEvent}

/-! ## Events of an order -/

/-- The order without what events change. -/
def Order.contract (o : Order) : Order :=
  { o.access with
    userSubscriptionId := 0
    refundedAmountMicros := 0
    refundedQuota := 0
    providerSubscriptionState := ""
    currentPeriodStart := 0
    currentPeriodEnd := 0
    providerEventTimeMillis := 0 }

theorem contract_of_access {o o' : Order} (h : o'.access = o.access) : o'.contract = o.contract := by
  show o'.access.contract = o.access.contract
  rw [h]

theorem contract_withPeriod (o : Order) (sid : ℕ) (fresh : Bool) (e : LifecycleEvent) :
    (o.withPeriod sid fresh e).contract = o.contract := rfl

theorem not_terminal_active : subscriptionProviderStateTerminal "active" = false := by decide

/-- The event is a lifecycle event of the order, signed not before its period. -/
def LifecycleEvent.Grants (order : Order) (e : LifecycleEvent) : Prop :=
  e.trimmed.Complete ∧ ¬e.IsPayment ∧ order.expectedAmountMicros = e.amountMicros ∧
    equalFold (trimSpace order.settlementCurrency) e.trimmed.currency = true ∧
    e.periodStart ≤ e.eventTimeMillis / 1000
  deriving Decidable

/-- The period of one event ends before the other begins, and it was signed first. -/
def LifecycleEvent.Precedes (e e' : LifecycleEvent) : Prop :=
  e.periodEnd ≤ e'.periodStart ∧ e.eventTimeMillis ≤ e'.eventTimeMillis
  deriving Decidable

/-- Any two events have the same period, or one precedes the other. -/
def Successive (events : List LifecycleEvent) : Prop :=
  ∀ e ∈ events, ∀ e' ∈ events,
    e.periodStart = e'.periodStart ∧ e.periodEnd = e'.periodEnd ∨ e.Precedes e' ∨ e'.Precedes e
  deriving Decidable

/-- The order has heard of nothing later than the beginning of the event. -/
def Order.Before (o : Order) (e : LifecycleEvent) : Prop :=
  o.currentPeriodEnd ≤ e.periodStart ∧ o.providerEventTimeMillis ≤ e.eventTimeMillis
  deriving Decidable

theorem LifecycleEvent.Grants.hasPeriod (h : e.Grants order) : e.HasPeriod :=
  e.trimmed_hasPeriod.1 (h.1.hasPeriod (e.trimmed_isPayment.not.2 h.2.1))

section

variable {e' : LifecycleEvent} (h : Successive events) (hgrs : ∀ e ∈ events, e.Grants order)
  (he : e ∈ events) (he' : e' ∈ events)
include h hgrs he he'

theorem Successive.precedes (hlt : e.periodEnd < e'.periodEnd) : e.Precedes e' := by
  have hper := (hgrs e he).hasPeriod.2
  rcases h e he e' he' with ⟨-, hend⟩ | hbef | haft
  · exact absurd hend hlt.ne
  · exact hbef
  · have hle := haft.1
    omega

theorem Successive.same (hend : e.periodEnd = e'.periodEnd) : e.periodStart = e'.periodStart := by
  have hper := (hgrs e he).hasPeriod.2
  have hper' := (hgrs e' he').hasPeriod.2
  rcases h e he e' he' with ⟨hsta, -⟩ | hbef | haft
  · exact hsta
  · have hle := hbef.1
    omega
  · have hle := haft.1
    omega

end

/-! ## Steps -/

/-- What others leave of the account: they may use quota and reset it, but they neither grant a
period nor change its quota. Settling the order is theirs as well. -/
structure OthersKeepPeriod (tradeNo : String) (db db' : Db) : Prop where
  next : db.subscriptions.next ≤ db'.subscriptions.next
  none : ∀ o, db.account tradeNo = some ⟨o, none⟩ →
    ∃ o', db'.account tradeNo = some ⟨o', none⟩ ∧ o'.access = o.access
  some : ∀ o s, db.account tradeNo = some ⟨o, some s⟩ →
    ∃ o' s', db'.account tradeNo = some ⟨o', some s'⟩ ∧ o'.access = o.access ∧
      s'.startTime = s.startTime ∧ s'.endTime = s.endTime ∧ s'.amountTotal = s.amountTotal

/-- The steps of the runs without refunds and states: events, when what their transactions look up
is there, and steps of others. -/
def AccountStep.Delivers (tradeNo : String) (plan : Plan) (events : List LifecycleEvent) :
    AccountStep → Db → Prop
  | .event env e, db => e ∈ events ∧ ∃ x ∈ db.findOrder tradeNo, Ready env tradeNo plan e x.1 x.2 db
  | .other db', db => OthersKeepPeriod tradeNo db db'
  | .state _ _, _ | .refund _ _, _ => False

/-- The steps of the runs with states, each at its time: events that carry a period are signed. -/
def AccountStep.Signed (tradeNo : String) : ℤ × AccountStep → Db → Prop
  | (now, .event env e), _ => env.now = now ∧ (e.HasPeriod → 0 < e.eventTimeMillis)
  | (now, .state env _), _ => env.now = now
  | (_, .other db'), db => OthersKeepPeriod tradeNo db db'
  | (_, .refund _ _), _ => False

/-- The step is an event or a state of the provider. -/
def AccountStep.IsEvent : AccountStep → Prop
  | .event _ _ | .state _ _ => True
  | .refund _ _ | .other _ => False

/-! ## Periods -/

/-- The account has the period of an event, with the quota of the plan. -/
def Account.HasPeriodOf (plan : Plan) (e : LifecycleEvent) (a : Account) : Prop :=
  a.order.currentPeriodStart = e.periodStart ∧ a.order.currentPeriodEnd = e.periodEnd ∧
    ∃ s ∈ a.sub, s.startTime = e.periodStart ∧ s.endTime = e.periodEnd ∧
      s.amountTotal = plan.totalAmount

/-- What was used of the quota, and how often it was reset. -/
def Account.usage (a : Account) : Option (ℤ × ℤ) := a.sub.map fun s => (s.amountUsed, s.quotaVersion)

/-- The account after the events `seen`: it has the period of the latest of them, and it has heard
of nothing that keeps it from a later event. -/
structure Account.Tracks (plan : Plan) (order : Order) (events seen : List LifecycleEvent)
    (a : Account) : Prop where
  contract : a.order.contract = order.contract
  live : subscriptionProviderStateTerminal a.order.providerSubscriptionState = false
  latest : ∀ d, IsLatest LifecycleEvent.periodEnd seen d → a.HasPeriodOf plan d
  before : ∀ d ∈ events, (∀ d' ∈ seen, d'.periodEnd < d.periodEnd) → a.order.Before d

theorem known_append (hkn : ∀ e ∈ seen, e ∈ events) (he : e ∈ events) :
    ∀ d ∈ seen ++ [e], d ∈ events :=
  forall_mem_append.2 ⟨hkn, forall_mem_singleton.2 he⟩

namespace Account.Tracks

variable {o o' : Order} {s : Option UserSubscription}

theorem of_access (h : Tracks plan order events seen ⟨o, s⟩) (hacs : o'.access = o.access) :
    Tracks plan order events seen ⟨o', s⟩ where
  contract := (contract_of_access hacs).trans h.contract
  live := (congrArg subscriptionProviderStateTerminal
    (access_providerSubscriptionState hacs)).trans h.live
  latest d hd := by
    obtain ⟨hsta, hend, hsub⟩ := h.latest d hd
    exact ⟨(access_currentPeriodStart hacs).trans hsta,
      (access_currentPeriodEnd hacs).trans hend, hsub⟩
  before d hd hlat := by
    obtain ⟨hend, htm⟩ := h.before d hd hlat
    exact ⟨(access_currentPeriodEnd hacs).trans_le hend,
      (access_providerEventTimeMillis hacs).trans_le htm⟩

section

variable (h : Tracks plan order events seen a) (hsuc : Successive events)
  (hgrs : ∀ e ∈ events, e.Grants order) (hkn : ∀ e ∈ seen, e ∈ events) (he : e ∈ events)
  (hold : ∃ d ∈ seen, e.periodEnd ≤ d.periodEnd)
include h hsuc hgrs hkn he hold

/-- An event that is not later than one before it adds nothing. -/
theorem mono : Tracks plan order events (seen ++ [e]) a where
  contract := h.contract
  live := h.live
  latest d hd := by
    obtain ⟨known, hm, hle⟩ := hold
    obtain ⟨last, hl⟩ := exists_isLatest LifecycleEvent.periodEnd (ne_nil_of_mem hm)
    have hle' := hl.2 known hm
    have hge := hd.2 last (mem_append_left _ hl.1)
    have hend : d.periodEnd = last.periodEnd := by
      rcases mem_append.1 hd.1 with hd | hd
      · exact le_antisymm (hl.2 d hd) hge
      · rw [mem_singleton.1 hd] at hge ⊢
        omega
    have hsta := hsuc.same hgrs (known_append hkn he d hd.1) (hkn last hl.1) hend
    have hper := h.latest last hl
    rwa [HasPeriodOf, ← hsta, ← hend] at hper
  before d hd hlat := h.before d hd fun d' hd' => hlat d' (mem_append_left _ hd')

/-- An event that is not later than one before it changes neither the period nor the quota, and
resets nothing. -/
theorem old (hid : a.sub.isSome → a.order.userSubscriptionId ≠ 0) (heff : EventEffect env e a a') :
    Tracks plan order events (seen ++ [e]) a' ∧ a'.usage = a.usage := by
  have hkt := h.mono hsuc hgrs hkn he hold
  cases heff with
  | money hacs | ignored hacs | known hacs => exact ⟨hkt.of_access hacs, rfl⟩
  | @granted o o' s plan' sub sid _ _ _ _ hnew =>
    obtain ⟨known, hm, hle⟩ := hold
    obtain ⟨last, hl⟩ := exists_isLatest LifecycleEvent.periodEnd (ne_nil_of_mem hm)
    obtain ⟨-, hend, s', rfl, -⟩ := h.latest last hl
    have hlt : o.currentPeriodEnd < e.periodEnd := hnew.resolve_left (hid rfl)
    have hle' := hl.2 known hm
    have hend' : o.currentPeriodEnd = last.periodEnd := hend
    omega
  | @recovered _ _ _ hacs _ _ hend hsta =>
    refine ⟨⟨(contract_withPeriod _ _ _ _).trans
      ((contract_of_access hacs).trans h.contract), not_terminal_active, ?_, ?_⟩, ?_⟩
    · intro d hd
      obtain ⟨hsta', hend', s, ⟨⟩, htim⟩ := hkt.latest d hd
      refine ⟨hsta.symm.trans hsta', hend.symm.trans hend', _, rfl, ?_⟩
      simp only [withPeriodStatus_kept]
      exact htim
    · intro d hd hlat
      have hbef := hkt.before d hd hlat
      have htm := (hsuc.precedes hgrs he hd (hlat e (mem_append_right _ (mem_singleton_self e)))).2
      refine ⟨hend.symm.trans_le hbef.1, max_le ?_ htm⟩
      rw [access_providerEventTimeMillis hacs]
      exact hbef.2
    · simp only [usage, map_some, withPeriodStatus_kept]

omit hkn he hold in
/-- An event that is later than all before it grants its period. -/
theorem new (hpl : order.planSnapshot = .frozen plan)
    (he : e ∈ events) (hlat : ∀ d ∈ seen, d.periodEnd < e.periodEnd)
    (heff : EventEffect env e a a') : Tracks plan order events (seen ++ [e]) a' := by
  have hper := (hgrs e he).hasPeriod
  have hbef := h.before e he hlat
  have hign : ¬a.order.Ignores e := by
    rintro (hte | hold | hear)
    · exact Bool.false_ne_true (h.live.symm.trans hte)
    · exact absurd hbef.2 (not_le.2 hold.2)
    · have hle := hbef.1
      have hlt := hper.2
      omega
  have hnew : a.order.currentPeriodEnd < e.periodEnd := hbef.1.trans_lt hper.2
  cases heff with
  | money _ hpay => exact absurd hpay (hgrs e he).2.1
  | ignored _ hign' => exact absurd hign' hign
  | known _ hend | recovered _ _ _ hend => exact absurd hend hnew.ne
  | @granted _ _ _ plan' _ _ hacs _ _ hfro =>
    obtain rfl : plan = plan' :=
      Snapshot.frozen.inj (((congrArg Order.planSnapshot h.contract :).trans hpl).symm.trans hfro)
    refine ⟨(contract_withPeriod _ _ _ _).trans
      ((contract_of_access hacs).trans h.contract), not_terminal_active, ?_, ?_⟩
    · intro d hd
      obtain rfl := hd.eq_of_append hlat
      refine ⟨rfl, rfl, _, rfl, ?_⟩
      simp only [withPeriodStatus_kept]
      exact ⟨rfl, rfl, rfl⟩
    · intro d hd hlat'
      obtain ⟨hle, htm⟩ := hsuc.precedes hgrs he hd
        (hlat' e (mem_append_right _ (mem_singleton_self e)))
      refine ⟨hle, max_le ?_ htm⟩
      rw [access_providerEventTimeMillis hacs]
      exact hbef.2.trans htm

end

end Account.Tracks

/-! ## Runs of events -/

/-- The tables after the events `seen`. -/
structure Converging (tradeNo : String) (plan : Plan) (order : Order)
    (events seen : List LifecycleEvent) (db : Db) : Prop where
  next : 0 < db.subscriptions.next
  known : ∀ e ∈ seen, e ∈ events
  tracks : ∃ a, db.account tradeNo = some a ∧ a.Tracks plan order events seen

/-- The usage of the account of a trade number. -/
def usageOf (tradeNo : String) (db : Db) : Option (Option (ℤ × ℤ)) :=
  (db.account tradeNo).map Account.usage

theorem account_sub_isSome (hacc : db.account tradeNo = some a) (h : a.sub.isSome) :
    a.order.userSubscriptionId ≠ 0 := by
  obtain ⟨o, _⟩ := a
  obtain ⟨s, rfl⟩ := isSome_iff_exists.1 h
  exact Db.account_userSubscriptionId hacc

/-- An event that is later than all before it is accepted. -/
theorem Account.Tracks.accepted {id : ℕ} {o : Order} {s : Option UserSubscription}
    (h : Account.Tracks plan order events seen ⟨o, s⟩) (hf : db.findOrder tradeNo = some (id, o))
    (hrdy : Ready env tradeNo plan e id o db) (hgrs : e.Grants order)
    (hpv : order.paymentProvider = paymentProviderWaffoPancake)
    (hfro : waffoSubscriptionPlanSnapshot order = .ok plan) (hbef : o.Before e) :
    ∃ out, recordWaffoPancakeSubscriptionEvent env tradeNo e db = .ok out := by
  have hper := hgrs.hasPeriod
  obtain ⟨hcp, hlif, hamt, hcur, hsig⟩ := hgrs
  have hpos : 0 < e.amountMicros := hcp.2.2.2.1
  have hfro' : waffoSubscriptionPlanSnapshot o = .ok plan := by
    show waffoSubscriptionPlanSnapshot o.contract = _
    rw [h.contract]
    exact hfro
  have hamt' : o.expectedAmountMicros = e.amountMicros :=
    (congrArg Order.expectedAmountMicros h.contract :).trans hamt
  have hcur' : o.settlementCurrency = order.settlementCurrency :=
    (congrArg Order.settlementCurrency h.contract :)
  have hft : o.Fits e := by
    have hle := hbef.1
    have hlt := hper.2
    constructor <;> omega
  exact recordWaffoPancakeSubscriptionEvent_ok hf hrdy hcp hlif
    ((congrArg Order.paymentProvider h.contract :).trans hpv)
    ⟨hamt' ▸ hpos, hamt'⟩ (hcur' ▸ hcur) hfro' (by omega) hft

namespace Converging

section

variable (h : Converging tradeNo plan order events seen db) (hsuc : Successive events)
  (hgrs : ∀ e ∈ events, e.Grants order)
include h hsuc hgrs

theorem old (he : e ∈ events) (hold : ∃ d ∈ seen, e.periodEnd ≤ d.periodEnd) :
    Converging tradeNo plan order events (seen ++ [e]) ((event env e).exec tradeNo db) ∧
      usageOf tradeNo ((event env e).exec tradeNo db) = usageOf tradeNo db := by
  obtain ⟨a, hacc, htra⟩ := h.tracks
  obtain ⟨hn, a', hacc', heff⟩ := exec_effect (i := .event env e) trivial hacc h.next
  rw [usageOf, usageOf, hacc, hacc']
  have hmvd : a'.Tracks plan order events (seen ++ [e]) ∧ a'.usage = a.usage := by
    rcases heff with rfl | heff
    · exact ⟨htra.mono hsuc hgrs h.known he hold, rfl⟩
    · exact htra.old hsuc hgrs h.known he hold (account_sub_isSome hacc) heff
  exact ⟨⟨hn, known_append h.known he, a', hacc', hmvd.1⟩, congrArg some hmvd.2⟩

theorem new (hpv : order.paymentProvider = paymentProviderWaffoPancake)
    (hfro : waffoSubscriptionPlanSnapshot order = .ok plan) (he : e ∈ events)
    (hrdy : ∃ x ∈ db.findOrder tradeNo, Ready env tradeNo plan e x.1 x.2 db)
    (hlat : ∀ d ∈ seen, d.periodEnd < e.periodEnd) :
    Converging tradeNo plan order events (seen ++ [e])
      ((event env e).exec tradeNo db) := by
  obtain ⟨a, hacc, htra⟩ := h.tracks
  obtain ⟨⟨id, o⟩, hf, hrdy⟩ := hrdy
  obtain rfl := mem_unique (db.account_of_findOrder hf) hacc
  obtain ⟨out, hout⟩ := htra.accepted hf hrdy (hgrs e he) hpv hfro (htra.before e he hlat)
  obtain ⟨hle, -, -, a', hacc', heff⟩ := recordWaffoPancakeSubscriptionEvent_effect hf h.next hout
  have hexec : (event env e).exec tradeNo db = out.2 := by
    rw [exec, hout]
    rfl
  rw [hexec]
  exact ⟨h.next.trans_le hle, known_append h.known he, a', hacc', htra.new hsuc
    hgrs (waffoSubscriptionPlanSnapshot_eq_ok hfro) he hlat heff⟩

omit hsuc hgrs in
theorem other
    (hkp : OthersKeepPeriod tradeNo db db') : Converging tradeNo plan order events seen db' := by
  obtain ⟨⟨o, sub⟩, hacc, htra⟩ := h.tracks
  refine ⟨h.next.trans_le hkp.next, h.known, ?_⟩
  cases sub with
  | none =>
    obtain ⟨o', hacc', hacs⟩ := hkp.none o hacc
    exact ⟨_, hacc', htra.of_access hacs⟩
  | some s =>
    obtain ⟨o', s', hacc', hacs, hsta, hend, htot⟩ := hkp.some o s hacc
    have hkt := htra.of_access hacs
    refine ⟨_, hacc', hkt.contract, hkt.live, ?_, hkt.before⟩
    intro d hd
    obtain ⟨hcur, hcur', t, ⟨⟩, hsta', hend', htot'⟩ := hkt.latest d hd
    exact ⟨hcur, hcur', s', rfl, hsta.trans hsta', hend.trans hend', htot.trans htot'⟩

end

theorem step (hsuc : Successive events) (hgrs : ∀ e ∈ events, e.Grants order)
    (hpv : order.paymentProvider = paymentProviderWaffoPancake)
    (hfro : waffoSubscriptionPlanSnapshot order = .ok plan) (seen : List LifecycleEvent) (db : Db)
    (i : AccountStep) (hok : i.Delivers tradeNo plan events db)
    (h : Converging tradeNo plan order events seen db) :
    Converging tradeNo plan order events (seen ++ i.delivery.toList) (i.exec tradeNo db) := by
  cases i with
  | event _ e =>
    by_cases hold : ∃ d ∈ seen, e.periodEnd ≤ d.periodEnd
    · exact (h.old hsuc hgrs hok.1 hold).1
    · refine h.new hsuc hgrs hpv hfro hok.1 hok.2 fun d hd => ?_
      exact not_le.1 fun hle => hold ⟨d, hd, hle⟩
  | state | refund => exact hok.elim
  | other db' =>
    show Converging tradeNo plan order events (seen ++ []) db'
    rw [append_nil]
    exact h.other hok

end Converging

/-! ## Terminal states -/

/-- Periods were granted by signed events: the times of an account with a subscription are known,
and the end of a subscription in a terminal state has passed. -/
def Account.Dated (now : ℤ) (a : Account) : Prop :=
  ∀ s ∈ a.sub, 0 < a.order.providerEventTimeMillis ∧ 0 < a.order.currentPeriodStart ∧
    0 < a.order.currentPeriodEnd ∧ 0 < s.endTime ∧
    (subscriptionProviderStateTerminal a.order.providerSubscriptionState = true →
      s.endTime ≤ now ∧ s.endTime ≤ a.order.providerEventTimeMillis / 1000)

/-- What is left of a subscription after a terminal state: its period and its quota stay, and it
does not become active. -/
structure Account.Ended (a a' : Account) : Prop where
  terminal : subscriptionProviderStateTerminal a'.order.providerSubscriptionState = true
  none : a.sub = none → a'.sub = none
  some : ∀ s ∈ a.sub, a'.order.currentPeriodStart = a.order.currentPeriodStart ∧
    a'.order.currentPeriodEnd = a.order.currentPeriodEnd ∧
    ∃ s' ∈ a'.sub, s'.startTime = s.startTime ∧ s'.endTime = s.endTime ∧
      s'.amountTotal = s.amountTotal ∧ s'.amountUsed = s.amountUsed ∧
      (s'.status = .active → s.status = .active)

namespace Account

variable {now now' : ℤ} {c : StateChange} {o o' : Order} {s s' : UserSubscription}

theorem Dated.of_access {sub sub' : Option UserSubscription} (h : Dated now ⟨o, sub⟩)
    (hnow : now ≤ now') (hacs : o'.access = o.access)
    (hsub : ∀ s' ∈ sub', ∃ s ∈ sub, s'.endTime = s.endTime) : Dated now' ⟨o', sub'⟩ := by
  intro s' hs'
  obtain ⟨s, hs, hend⟩ := hsub s' hs'
  obtain ⟨hti, hsta, hl, hpos, htm⟩ := h s hs
  simp only [access_providerEventTimeMillis hacs, access_currentPeriodStart hacs,
    access_currentPeriodEnd hacs, access_providerSubscriptionState hacs, hend]
  exact ⟨hti, hsta, hl, hpos, fun ht => ⟨(htm ht).1.trans hnow, (htm ht).2⟩⟩

theorem Dated.event (h : a.Dated now) (hnow : now ≤ now')
    (hsig : e.HasPeriod → 0 < e.eventTimeMillis) (heff : EventEffect env e a a') :
    a'.Dated now' := by
  cases heff with
  | money hacs | ignored hacs | known hacs => exact h.of_access hnow hacs fun s hs => ⟨s, hs, rfl⟩
  | granted _ hper =>
    rintro t ⟨⟩
    have hend := hper.1.trans hper.2
    refine ⟨lt_max_of_lt_right (hsig hper), hper.1, hend, ?_, ?_⟩
    · simp only [withPeriodStatus_kept]
      exact hend
    · exact fun htm => nomatch not_terminal_active.symm.trans htm
  | @recovered _ o' sub hacs _ _ hend hsta =>
    rintro t ⟨⟩
    obtain ⟨hti, hsta', hl, hpos, -⟩ := h sub rfl
    have hti' : 0 < o'.providerEventTimeMillis :=
      hti.trans_eq (access_providerEventTimeMillis hacs).symm
    refine ⟨lt_max_of_lt_left hti', hsta'.trans_eq hsta, hl.trans_eq hend, ?_, ?_⟩
    · simp only [withPeriodStatus_kept]
      exact hpos
    · exact fun htm => nomatch not_terminal_active.symm.trans htm

/-- The end that a terminal state sets. -/
theorem terminalEnd_le (env : Env) {eventTimeMillis : ℤ} (hsig : 0 < eventTimeMillis) :
    terminalEnd env eventTimeMillis ≤ env.now ∧
      terminalEnd env eventTimeMillis ≤ eventTimeMillis / 1000 ∧
      min (eventTimeMillis / 1000) env.now ≤ terminalEnd env eventTimeMillis := by
  unfold terminalEnd
  split <;> omega

/-- A state that is not stale is not older than the account, and keeps its period. -/
theorem Dated.withState (h : Dated now ⟨o, some s⟩) (hsta : ¬c.Stale o) :
    o.providerEventTimeMillis ≤ c.eventTimeMillis ∧
      o.currentPeriodStart ≤ c.eventTimeMillis / 1000 ∧
      (o.withState c).currentPeriodStart = o.currentPeriodStart ∧
      (o.withState c).currentPeriodEnd = o.currentPeriodEnd := by
  obtain ⟨htm, hstar, hl, -⟩ := h s rfl
  obtain ⟨hold, hsta⟩ := not_or.1 hsta
  obtain ⟨-, hsta⟩ := not_or.1 hsta
  obtain ⟨hear, -⟩ := not_or.1 hsta
  simp only [] at htm hstar hl
  refine ⟨by omega, by omega, ?_, ?_⟩
  · simp only [Order.withState, if_neg fun hz => hstar.ne' (And.left hz)]
  · simp only [Order.withState, if_neg fun hz => hl.ne' (And.left hz)]

theorem Dated.state (h : a.Dated now) (hnow : now ≤ env.now) (hpos : 0 < env.now)
    (hid : a.sub.isSome → a.order.userSubscriptionId ≠ 0) (heff : StateEffect env c a a') :
    a'.Dated env.now := by
  cases heff with
  | stale => exact h.of_access hnow rfl fun s hs => ⟨s, hs, rfl⟩
  | @stored _ _ hstal hpla =>
    rintro s ⟨⟩
    have hstat := hpla.resolve_right (hid rfl)
    obtain ⟨htm, -, hsta', hl'⟩ := h.withState hstal
    obtain ⟨htm', hsta, hl, hend, -⟩ := h s rfl
    simp only [Order.withState_providerEventTimeMillis, Order.withState_providerSubscriptionState,
      hsta', hl']
    refine ⟨htm'.trans_le htm, hsta, hl, hend, ?_⟩
    exact fun hte => nomatch hstat.symm.trans hte
  | @cancelled o sub hstal =>
    rintro s ⟨⟩
    obtain ⟨htm, hsig, hsta', hl'⟩ := h.withState hstal
    obtain ⟨htm', hsta, hl, hend, -⟩ := h sub rfl
    simp only [] at htm' hsta hl
    obtain ⟨hle, hle', hge⟩ := terminalEnd_le env (htm'.trans_le htm)
    simp only [Order.withState_providerEventTimeMillis, hsta', hl', cancelledAt]
    refine ⟨htm'.trans_le htm, hsta, hl, ?_, fun _ => ?_⟩ <;> split <;> omega

section

variable (h : subscriptionProviderStateTerminal a.order.providerSubscriptionState = true)
include h

/-- After a terminal state an event changes nothing. -/
theorem Ended.event (heff : EventEffect env e a a') : a.Ended a' := by
  cases heff with
  | @money _ _ _ hacs | @ignored _ _ _ hacs | @known _ _ _ hacs =>
    have hsta := access_providerSubscriptionState hacs
    refine ⟨hsta.symm ▸ h, id, fun s hs => ⟨access_currentPeriodStart hacs,
      access_currentPeriodEnd hacs, s, hs, rfl, rfl, rfl, rfl, id⟩⟩
  | granted _ _ hign | recovered _ hign => exact absurd (.inl h) hign

/-- After a terminal state another state keeps the period. -/
theorem Ended.state (hdat : a.Dated now) (hnow : now ≤ env.now)
    (hid : a.sub.isSome → a.order.userSubscriptionId ≠ 0) (heff : StateEffect env c a a') :
    a.Ended a' := by
  cases heff with
  | stale => exact ⟨h, id, fun s hs => ⟨rfl, rfl, s, hs, rfl, rfl, rfl, rfl, id⟩⟩
  | @stored o _ hsta hpla =>
    have htm : subscriptionProviderStateTerminal c.state = true := by
      by_contra hne
      exact hsta (.inr (.inr (.inr ⟨h, Bool.of_not_eq_true hne⟩)))
    refine ⟨(congrArg _ (o.withState_providerSubscriptionState c)).trans htm, id, ?_⟩
    rintro s ⟨⟩
    exact absurd (hpla.resolve_left (by simp [htm])) (hid rfl)
  | @cancelled o sub hsta htm =>
    refine ⟨(congrArg _ (o.withState_providerSubscriptionState c)).trans htm,
      (fun h => nomatch h), ?_⟩
    rintro s ⟨⟩
    obtain ⟨hti, -, hstar', hl'⟩ := hdat.withState hsta
    obtain ⟨hti', -, -, hend, hpas⟩ := hdat sub rfl
    obtain ⟨hpast, hpast'⟩ := hpas h
    simp only [] at hti' hpast'
    obtain ⟨-, -, hge⟩ := terminalEnd_le env (hti'.trans_le hti)
    refine ⟨hstar', hl', _, rfl, rfl, ?_, rfl, rfl, (fun h => nomatch h)⟩
    refine if_neg ?_
    rintro (hz | hlt)
    · exact hend.ne' hz
    · omega

end

end Account

/-- The step of a run at its time. -/
def AccountStep.execAt (tradeNo : String) (i : ℤ × AccountStep) (db : Db) : Db := i.2.exec tradeNo db

/-- The tables of an order whose periods are granted by signed events. -/
structure DatedAt (tradeNo : String) (now : ℤ) (db : Db) : Prop where
  pos : 0 < now
  next : 0 < db.subscriptions.next
  dated : ∃ a, db.account tradeNo = some a ∧ a.Dated now

theorem DatedAt.step (now : ℤ) (db : Db) (i : ℤ × AccountStep) (h : DatedAt tradeNo now db)
    (hnow : now ≤ i.1) (hok : AccountStep.Signed tradeNo i db) :
    DatedAt tradeNo i.1 (execAt tradeNo i db) := by
  have hpos := h.pos.trans_le hnow
  obtain ⟨a, hacc, hdat⟩ := h.dated
  obtain ⟨now', i⟩ := i
  cases i with
  | event env e =>
    obtain ⟨hn, a', hacc', rfl | heff⟩ := exec_effect (i := .event env e) trivial hacc h.next
    · exact ⟨hpos, hn, a', hacc', hdat.of_access hnow rfl fun s hs => ⟨s, hs, rfl⟩⟩
    · exact ⟨hpos, hn, a', hacc', hdat.event hnow hok.2 heff⟩
  | state env c =>
    obtain rfl : env.now = now' := hok
    obtain ⟨hn, a', hacc', rfl | heff⟩ := exec_effect (i := .state env c) trivial hacc h.next
    · exact ⟨hpos, hn, a', hacc', hdat.of_access hnow rfl fun s hs => ⟨s, hs, rfl⟩⟩
    · exact ⟨hpos, hn, a', hacc', hdat.state hnow hpos (account_sub_isSome hacc) heff⟩
  | refund => exact hok.elim
  | other =>
    refine ⟨hpos, h.next.trans_le hok.next, ?_⟩
    obtain ⟨o, sub⟩ := a
    cases sub with
    | none =>
      obtain ⟨o', hacc', hacs⟩ := hok.none o hacc
      exact ⟨_, hacc', hdat.of_access hnow hacs fun s hs => nomatch hs⟩
    | some s =>
      obtain ⟨o', s', hacc', hacs, -, hend, -⟩ := hok.some o s hacc
      refine ⟨_, hacc', hdat.of_access hnow hacs ?_⟩
      rintro t ⟨⟩
      exact ⟨s, rfl, hend⟩

/-- After a terminal state, an event or a state ends nothing but the status. -/
theorem DatedAt.ended {now now' : ℤ} {i : AccountStep} (h : DatedAt tradeNo now db)
    (hacc : db.account tradeNo = some a)
    (htm : subscriptionProviderStateTerminal a.order.providerSubscriptionState = true)
    (hnow : now ≤ now') (hok : AccountStep.Signed tradeNo (now', i) db) (hev : i.IsEvent) :
    ∃ a', (i.exec tradeNo db).account tradeNo = some a' ∧ a.Ended a' := by
  obtain ⟨a₁, hacc₁, hdat⟩ := h.dated
  obtain rfl := mem_unique hacc hacc₁
  have hkp : a.Ended a := ⟨htm, id, fun s hs => ⟨rfl, rfl, s, hs, rfl, rfl, rfl, rfl, id⟩⟩
  have hab : i.About tradeNo := by
    cases i with
    | event | state => trivial
    | refund | other => exact hev.elim
  obtain ⟨-, a', hacc', heff⟩ := exec_effect hab hacc h.next
  refine ⟨a', hacc', ?_⟩
  rcases heff with rfl | heff
  · exact hkp
  · cases i with
    | event => exact .event htm heff
    | state env c =>
      obtain rfl : env.now = now' := hok
      exact .state htm hdat hnow (account_sub_isSome hacc) heff
    | refund | other => exact hev.elim

/-- **Lifecycle events converge.** For an order with a frozen plan, in no terminal state, and events
of successive periods after what the order has heard of:

* when all events have been delivered, in any order and any number of times, the period and the quota
  are those of the latest one;
* a delivery of a period that was delivered before leaves the used quota alone;
* along every run with states, from the first terminal state on no event and no state changes the
  period, the quota or the used quota of the subscription, or makes it active. -/
theorem lifecycle_converges {sub : Option UserSubscription}
    (haccount : db.account tradeNo = some ⟨order, sub⟩) (hnext : 0 < db.subscriptions.next)
    (hprovider : order.paymentProvider = paymentProviderWaffoPancake)
    (hfrozen : waffoSubscriptionPlanSnapshot order = .ok plan)
    (hlive : subscriptionProviderStateTerminal order.providerSubscriptionState = false)
    (hgrants : ∀ e ∈ events, e.Grants order) (hsuccessive : Successive events)
    (hbefore : ∀ e ∈ events, order.Before e) :
    (∀ steps, Along (AccountStep.exec tradeNo) (AccountStep.Delivers tradeNo plan events) db steps →
      ((∀ e ∈ events, e ∈ delivered AccountStep.delivery steps) →
        ∀ e, IsLatest LifecycleEvent.periodEnd events e →
          ∃ a, (run (AccountStep.exec tradeNo) db steps).account tradeNo = some a ∧
            a.HasPeriodOf plan e) ∧
      ∀ before env e after, steps = before ++ .event env e :: after →
        (∃ d ∈ delivered AccountStep.delivery before, d.periodEnd = e.periodEnd) →
        usageOf tradeNo (run (AccountStep.exec tradeNo) db (before ++ [.event env e])) =
          usageOf tradeNo (run (AccountStep.exec tradeNo) db before)) ∧
    ∀ start c, 0 < start → Account.Dated start ⟨order, sub⟩ →
      Timed.Reaches (AccountStep.execAt tradeNo) Prod.fst (AccountStep.Signed tradeNo)
        ⟨start, db⟩ c →
      ∀ a, c.state.account tradeNo = some a →
        subscriptionProviderStateTerminal a.order.providerSubscriptionState = true →
        ∀ now i, c.clock ≤ now → AccountStep.Signed tradeNo (now, i) c.state → i.IsEvent →
          ∃ a', (i.exec tradeNo c.state).account tradeNo = some a' ∧ a.Ended a' := by
  have hstart : Converging tradeNo plan order events [] db := by
    refine ⟨hnext, (fun e he => nomatch he), _, haccount, rfl, hlive, ?_,
      fun e he _ => hbefore e he⟩
    exact fun e he => nomatch he.1
  have hrun : ∀ steps,
      Along (exec tradeNo) (AccountStep.Delivers tradeNo plan events) db steps →
      Converging tradeNo plan order events (delivered AccountStep.delivery steps)
        (run (exec tradeNo) db steps) := fun steps hsteps =>
    delivery_rule (Converging.step hsuccessive hgrants hprovider hfrozen) hstart hsteps
  refine ⟨fun steps hsteps => ⟨?_, ?_⟩, ?_⟩
  · intro hall e he
    have hend := hrun steps hsteps
    obtain ⟨a, haccount', htracks⟩ := hend.tracks
    refine ⟨a, haccount', htracks.latest e ((isLatest_congr fun d => ?_).1 he)⟩
    exact ⟨hall d, hend.known d⟩
  · rintro before env e after rfl ⟨d, hd, hsame⟩
    obtain ⟨hbefore', hafter⟩ := along_append.1 hsteps
    have hmiddle := hrun before hbefore'
    have hlast : run (exec tradeNo) db (before ++ [.event env e]) =
        (AccountStep.event env e).exec tradeNo (run (exec tradeNo) db before) := by
      rw [run, foldl_append]
      rfl
    rw [hlast]
    exact (hmiddle.old hsuccessive hgrants hafter.1.1 ⟨d, hd, hsame.ge⟩).2
  · intro start c hpos hdated hreach a ha hterminal now i hnow hok hevent
    have hreached : DatedAt tradeNo c.clock c.state :=
      Timed.invariant (P := DatedAt tradeNo) DatedAt.step hreach ⟨hpos, hnext, _, haccount, hdated⟩
    exact hreached.ended ha hterminal hnow hok hevent

/-! ### Two months -/

/-- The `n`-th month, signed in its middle. -/
def signedMonth (n : ℕ) : LifecycleEvent :=
  { monthEvent "subscription.renewed" s!"l{n}" (1000 * n) (1000 * (n + 1)) with
    eventTimeMillis := 1000000 * n + 500000 }

/-- The second month comes first, and again after the first. -/
def monthSteps : List AccountStep :=
  [.event (sampleEnv 2600) (signedMonth 2), .event (sampleEnv 2700) (signedMonth 1),
    .event (sampleEnv 2800) (signedMonth 2)]

/-- The provider has cancelled the subscription. -/
def cancellation : StateChange where
  expectedProvider := "waffo_pancake"
  providerSubscriptionId := "ORD1"
  providerState := "canceled"
  periodStart := 0
  periodEnd := 0
  canceledAt := 0
  eventTimeMillis := 1800000

/-- The first month is cancelled. -/
def cancelledSteps : List (ℤ × AccountStep) :=
  [(1600, .event (sampleEnv 1600) (signedMonth 1)), (1900, .state (sampleEnv 1900) cancellation)]

theorem lifecycle_converges_two_months :
    (∃ a, (run (AccountStep.exec "T1") sampleDb monthSteps).account "T1" = some a ∧
        a.HasPeriodOf samplePlan (signedMonth 2)) ∧
      usageOf "T1" (run (AccountStep.exec "T1") sampleDb monthSteps) =
        usageOf "T1" (run (AccountStep.exec "T1") sampleDb (monthSteps.take 2)) ∧
      ∃ a a' : Account,
        (Timed.runList (AccountStep.execAt "T1") Prod.fst ⟨1, sampleDb⟩ cancelledSteps).state.account
          "T1" = some a ∧
        ((AccountStep.event (sampleEnv 2600) (signedMonth 2)).exec "T1"
          (Timed.runList (AccountStep.execAt "T1") Prod.fst ⟨1, sampleDb⟩ cancelledSteps).state).account
          "T1" = some a' ∧ a.Ended a' := by
  have hstart : sampleDb.account "T1" = some ⟨sampleOrder, none⟩ :=
    sampleDb.account_of_findOrder (show _ = some (1, _) by decide +kernel)
  have hgrants : ∀ e ∈ [signedMonth 1, signedMonth 2], e.Grants sampleOrder := by decide +kernel
  have hfrozen : waffoSubscriptionPlanSnapshot sampleOrder = .ok samplePlan := by decide +kernel
  obtain ⟨hruns, hended⟩ := lifecycle_converges hstart (by decide) rfl hfrozen (by decide +kernel)
    hgrants (by decide +kernel) (by decide +kernel)
  obtain ⟨hlatest, husage⟩ := hruns monthSteps ⟨⟨by decide, by decide +kernel⟩,
    ⟨by decide, by decide +kernel⟩, ⟨by decide, by decide +kernel⟩, trivial⟩
  obtain ⟨a, ha, hterminal⟩ : ∃ a ∈ (Timed.runList (execAt "T1") Prod.fst ⟨1, sampleDb⟩
      cancelledSteps).state.account "T1",
      subscriptionProviderStateTerminal a.order.providerSubscriptionState = true := by decide +kernel
  have hreach : Timed.Reaches (execAt "T1") Prod.fst (AccountStep.Signed "T1") ⟨1, sampleDb⟩
      (Timed.runList (execAt "T1") Prod.fst ⟨1, sampleDb⟩ cancelledSteps) := by
    refine Timed.reaches_runList_of _ _ (by decide) fun n hn => ?_
    match n, hn with
    | 0, _ => exact ⟨rfl, fun _ => by decide⟩
    | 1, _ => exact rfl
  obtain ⟨a', ha', hkept⟩ := hended 1 _ (by decide) (fun s hs => nomatch hs) hreach a ha hterminal 2600
    (.event (sampleEnv 2600) (signedMonth 2)) (by decide) ⟨rfl, fun _ => by decide⟩ trivial
  refine ⟨hlatest (by decide) (signedMonth 2) ⟨by decide, by decide⟩, ?_, a, a', ha, ha', hkept⟩
  exact husage (monthSteps.take 2) _ (signedMonth 2) [] rfl ⟨signedMonth 2, by decide, rfl⟩

end LmmApi.Recurring
