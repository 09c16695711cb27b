import LmmApi.HeroSms.Sms.Conservation

/-!
# Recovery from a crash of a purchase

A purchase reserves its price in one transaction and marks the attempt in another statement before
it asks the provider. If it crashes after the mark and the provider has nothing for it, a
reconciliation finds the order and refunds it. Before the mark the order is `pending_provider`,
which no reconciliation looks for, so a crash between the two statements leaves the reservation
taken: `recovered_iff_marked`.

`Phase` says how far a purchase has come, and `Repairing` what a reconciliation has still to do for
an order.
-/

namespace LmmApi.HeroSms.Sms

open Guarded Threads Attribution List Option Table

/-! ## Refunds that go through -/

/-- A wallet can be given an amount. -/
def WalletTakes (users : Table User) (id : ℕ) (amount : ℤ) : Prop :=
  0 < id ∧ ∃ u ∈ users.get? id, u.deleted = false ∧
    (0 < amount → ValidWalletQuota amount ∧ InWalletQuotaCurrentBounds amount u.quota)
  deriving Decidable

variable {users : Table User} {status expected : Status} {code message : String} {k : ℕ}
  {r : ℕ × Order}

theorem activeUser_eq_ok {id : ℕ} {u : User} :
    activeUser users id = .ok u ↔ users.get? id = some u ∧ u.deleted = false := by
  simp [activeUser, orFail_eq_ok, filter_eq_some_iff]

variable {db db' : Db} {id : ℕ} {o : Order}

theorem applyWalletQuotaDelta_of_takes {user : ℕ} {amount : ℤ}
    (h : WalletTakes users user amount) (hpos : 0 < amount) :
    applyWalletQuotaDelta users user amount = .ok (users.modify user (User.addQuota amount)) := by
  obtain ⟨hid, u, hu, hdel, hran⟩ := h
  obtain ⟨hval, hbou⟩ := hran hpos
  simp only [applyWalletQuotaDelta, eq_ok, updateWalletQuotaByDelta_eq_ok]
  exact ⟨hid, u, activeUser_eq_ok.2 ⟨hu, hdel⟩, hval, u, hu, hdel, hbou, trivial⟩

theorem payTolerant_of_takes {row : Ledger} (h : WalletTakes db.users row.userId row.amountQuota) :
    ∃ db', db.payTolerant row = .ok db' ∧ db'.orders = db.orders ∧
      ∃ u, activeUser db'.users row.userId = .ok u := by
  have ⟨_, u, hu, hdel, _⟩ := h
  by_cases hpos : 0 < row.amountQuota
  · refine ⟨{ db with
      users := db.users.modify row.userId (User.addQuota row.amountQuota)
      ledger := (db.ledger.insert? row).getD db.ledger }, ?_, rfl, User.addQuota row.amountQuota u, ?_⟩
    · rw [Db.payTolerant, if_neg (not_le.2 hpos), applyWalletQuotaDelta_of_takes h hpos]
      rfl
    · refine activeUser_eq_ok.2 ⟨?_, hdel⟩
      rw [get?_modify_self, hu, map_some]
  · refine ⟨db, ?_, rfl, u, activeUser_eq_ok.2 ⟨hu, hdel⟩⟩
    rw [Db.payTolerant, if_pos (not_lt.1 hpos)]
    rfl

/-- An order that has failed and got its reservation back. -/
def Order.Refunded (o : Order) : Prop := o.status = .failed ∧ o.refundedQuota = o.reservedQuota

/-- What a refund does to its order. -/
theorem refund_row
    (h : db.refund id status code message [expected] = .ok db') (ho : db.orders.get? id = some o) :
    o.status = expected ∧ ∃ o', db'.orders.get? id = some o' ∧ o'.status = status ∧
      o'.refundedQuota = o'.reservedQuota := by
  simp only [Db.refund, eq_ok, mem_singleton, cons_ne_nil, false_or, ho, some.injEq] at h
  obtain ⟨_, rfl, hst, db₁, hpay, _, -, rfl⟩ := h
  have ho₁ : db₁.orders.get? id = some o := by
    rw [(payTolerant_eq_ok hpay).2]
    exact ho
  have hr := db₁.orders.get?_modify
    (Db.refundedRow db₁.now status code message (o.reservedQuota - o.refundedQuota)) (fun _ => rfl) ho₁ id
  exact ⟨hst, _, hr.trans (if_pos rfl), rfl, add_sub_cancel _ _⟩

theorem exists_refund (ho : db.orders.get? id = some o) (hst : o.status = expected)
    (htak : WalletTakes db.users o.userId (o.reservedQuota - o.refundedQuota)) :
    ∃ db', db.refund id status code message [expected] = .ok db' := by
  obtain ⟨db₁, hpay, -, u, hu⟩ :=
    @payTolerant_of_takes db ⟨o.userId, id, o.reservedQuota - o.refundedQuota, .refund id⟩ htak
  simp only [Db.refund, eq_ok]
  exact ⟨_, o, ho, .inr (mem_singleton.2 hst), db₁, hpay, u, hu, rfl⟩

/-! ## The repair of an order -/

/-- What a process does for an order `id`, with the row `o`, whose purchase may have failed. -/
inductive Repairs (id : ℕ) (o : Order) : Instr → Prop
  | reconcile : Repairs id o (.reconcileOrder id)
  | list : Repairs id o (.listActive id o)
  | fail (code message : String) : Repairs id o (failOrder id code message)

/-- The provider creates no activation: neither for the purchase nor in a listing. -/
def NoActivation : Instr → Answer → Prop
  | .purchase _, .activation _ => False
  | .listActive _ o, .activations l => candidates o l = []
  | _, _ => True

instance : ∀ i a, Decidable (NoActivation i a) := by
  intro i a
  unfold NoActivation
  split <;> infer_instance

def Answer.isOk : Answer → Bool
  | .ok => true
  | _ => false

theorem Answer.eq_ok {a : Answer} (h : a.isOk) : a = .ok := by
  cases a <;> first | rfl | cases h

/-- The activations of a listing. -/
def Answer.listing? : Answer → Option (List ActiveActivation)
  | .activations l => some l
  | _ => none

/-- What a reconciliation needs for the order `id`: the lease, a listing without candidates 15
minutes after the purchase, a database that works and a wallet that can be given the amount. -/
def Favourable (id : ℕ) : Instr → Answer → Db → Prop
  | .reconcile _, a, _ => a.isOk
  | .reconcileOrder k, a, _ => k = id → a.isOk
  | .listActive k o, a, db => k = id →
    (∃ l ∈ a.listing?, candidates o l = []) ∧ unknownWindow ≤ db.now - o.providerRequestStartedAt
  | .refund k _ _ _ _, a, db => k = id → a.isOk ∧ ∀ o ∈ db.orders.get? id,
    WalletTakes db.users o.userId (o.reservedQuota - o.refundedQuota)
  | _, _, _ => True

instance (id : ℕ) : ∀ i a db, Decidable (Favourable id i a db) := by
  intro i a db
  unfold Favourable
  split <;> infer_instance

variable {env : Env} {i : Instr} {a : Answer} {e : Effect Db Unit Instr}

theorem Repairs.later (h : Repairs id o i) : i.Later := by
  cases h with
  | reconcile | list => trivial
  | fail code message => exact failOrder_later code message

/-- **A step of a repair**: it goes on, or the order is refunded, or the repair ends because
the order has failed before or something was not favourable. -/
theorem Repairs.step (h : Repairs id o i) (hsem : sem env i a db = some e) (hno : NoActivation i a)
    (hst : o.status = .purchaseUnknown) {o₁ : Order} (ho : db.orders.get? id = some o₁)
    (hrow : o₁ = o ∨ o₁.status = .failed) :
    (e.shared = db ∧ ∃ j, e.next = [j] ∧ Repairs id o j) ∨
      e.next = [] ∧ ((∃ o', e.shared.orders.get? id = some o' ∧ o'.Refunded) ∨
        e.shared = db ∧ (o₁ = o → ¬ Favourable id i a db)) := by
  cases h with
  | reconcile =>
    cases a <;> simp only [sem, ho, Answer.granted, guarded, reduceCtorEq] at hsem <;> obtain rfl := some.inj hsem
    case ok =>
      obtain rfl | hst' := hrow
      · rw [if_pos hst]
        exact .inl ⟨rfl, _, rfl, .list⟩
      · rw [if_neg (by simp [hst'])]
        refine .inr ⟨rfl, .inr ⟨rfl, ?_⟩⟩
        rintro rfl
        cases hst.symm.trans hst'
    all_goals exact .inr ⟨rfl, .inr ⟨rfl, by simp [Favourable, Answer.isOk]⟩⟩
  | list =>
    cases a <;> simp only [sem, reduceCtorEq] at hsem
    case activations l =>
      have hn : candidates o l = [] := hno
      simp only [listed, hn] at hsem
      split at hsem
      · cases hsem
        exact .inl ⟨rfl, _, rfl, .fail _ _⟩
      case isFalse hear =>
        cases hsem
        exact .inr ⟨rfl, .inr ⟨rfl, fun _ hfav => hear (hfav rfl).2⟩⟩
    all_goals
      cases hsem
      exact .inr ⟨rfl, .inr ⟨rfl, by simp [Favourable, Answer.listing?]⟩⟩
  | fail code message =>
    cases a <;> simp only [failOrder, sem, reduceCtorEq] at hsem
    case ok =>
      cases hsem
      refine .inr ⟨rfl, ?_⟩
      cases hrf : db.refund id .failed code message [.purchaseUnknown] with
      | ok =>
        obtain ⟨-, o', ho', href⟩ := refund_row hrf ho
        exact .inl ⟨o', ho', href⟩
      | error =>
        refine .inr ⟨rfl, ?_⟩
        rintro rfl hfav
        obtain ⟨_, hok⟩ := exists_refund ho hst ((hfav rfl).2 _ ho)
        cases hrf.symm.trans hok
    case abort =>
      cases hsem
      exact .inr ⟨rfl, .inr ⟨rfl, by simp [failOrder, Favourable, Answer.isOk]⟩⟩

/-! ## The work on other orders -/

/-- An instruction about another order. -/
def Foreign (id : ℕ) (i : Instr) : Prop := i.Later ∧ ∃ k, i.subject = some k ∧ k ≠ id

theorem Instr.subject_of_order (h : i.order db = some k) :
    i.subject = none ∨ i.subject = some k := by
  cases i <;> first | exact .inl rfl | exact .inr h | cases h

theorem Write.other {early : Prop} {j : ℕ} (h : Write db early k db') (hj : j ≠ k) :
    db'.orders.get? j = db.orders.get? j := by
  cases h with
  | move _ _ hr | mark _ _ _ hr | activate _ _ hr | refund _ _ hr =>
    exact (hr.after j).trans (if_neg hj)
  | reserve _ _ hos => exact (hos j).trans (if_neg hj)

theorem Foreign.step (h : Foreign id i) (hsem : sem env i a db = some e) :
    e.shared.orders.get? id = db.orders.get? id ∧ e.spawned = [] ∧ ∀ j ∈ e.next, Foreign id j := by
  obtain ⟨hlat, k, hk, hne⟩ := h
  have hd := sem_does_of_later env hsem hlat
  refine ⟨?_, hd.spawned, fun j hj => ?_⟩
  · obtain hs | ⟨k', hk', hw⟩ := hd.shared
    · rw [hs]
    · obtain hn | hsm := Instr.subject_of_order hk'
      · cases hn.symm.trans hk
      · obtain rfl := mem_unique hsm hk
        exact hw.other hne.symm
  · cases hd.leads with
    | later hnext =>
      obtain ⟨hlat', hsub⟩ := hnext j hj
      exact ⟨hlat', k, (hsub.resolve_left (by simp [hk])).trans hk, hne⟩
    | abandon => exact hlat.elim
    | created => cases hk

/-! ## The list of a reconciliation -/

variable {p : Pool Db Unit Instr} {limit : ℤ}

theorem mem_pendingOrders (h : r ∈ db.pendingOrders limit) :
    db.orders.get? r.1 = some r.2 ∧ Db.Pending r.2 := by
  have hm := mem_of_mem_take h
  rw [mem_insertionSort, mem_filter, decide_eq_true_eq] at hm
  exact ⟨exists_get?_of_mem hm.1, hm.2⟩

/-- The number of orders that a reconciliation could work on. -/
def Db.pendingCount (db : Db) : ℕ := (db.orders.table.rows.filter fun r => Pending r.2).length

theorem mem_pendingOrders_of_covered (hcov : db.pendingCount ≤ Db.effectiveLimit limit)
    (ho : db.orders.get? id = some o) (hpen : Db.Pending o) : (id, o) ∈ db.pendingOrders limit := by
  rw [Db.pendingOrders, take_of_length_le (by rwa [length_insertionSort]),
    mem_insertionSort, mem_filter, decide_eq_true_eq]
  exact ⟨get?_eq_some_iff.1 ho, hpen⟩

theorem reconcileOne_foreign (h : r.1 ≠ id) : Foreign id (reconcileOne r) := by
  refine ⟨reconcileOne_later r, r.1, ?_, h⟩
  unfold reconcileOne
  repeat' split
  all_goals rfl

/-! ## A purchase up to a crash -/

/-- The instructions of a purchase up to its reservation. -/
def Instr.isPreparing : Instr → Bool
  | create .. | checkOffer .. | recheck _ | checkOperator _ | recheckOffer _ | snapshot _
  | reserve .. => true
  | _ => false

/-- How far a purchase has come whose order is or will be `id`, with what it does next. -/
inductive Phase (id : ℕ) (db : Db) (code : List Instr) : Prop
  | preparing (hnext : db.orders.table.next = id)
      (hcode : code = [] ∨ ∃ i, code = [i] ∧ i.isPreparing)
  | reserved (o : Order) (ho : db.orders.get? id = some o) (hstatus : o.status = .pendingProvider)
      (hcode : code = [] ∨ code = [.markStarted id] ∨ code = [abandon id])
  | marked (o : Order) (ho : db.orders.get? id = some o) (hstatus : o.status = .purchaseUnknown)
      (hcode : code = [] ∨ code = [.purchase id] ∨ ∃ i, code = [i] ∧ Repairs id o i)
  | failed (o : Order) (ho : db.orders.get? id = some o) (hrefunded : o.Refunded) (hcode : code = [])

variable {next : List Instr}

theorem Phase.of_goto (h : goto db next = some e) (hn : db.orders.table.next = id)
    (hc : next = [] ∨ ∃ i, next = [i] ∧ i.isPreparing) : e.spawned = [] ∧ Phase id e.shared e.next := by
  cases h
  exact ⟨rfl, .preparing hn hc⟩

open Phase

theorem Phase.of_guarded (h : guarded db next a.granted = some e) (hn : db.orders.table.next = id)
    (hc : next = [] ∨ ∃ i, next = [i] ∧ i.isPreparing) : e.spawned = [] ∧ Phase id e.shared e.next := by
  obtain ⟨-, h⟩ | h := guarded_eq_some h
  · exact of_goto h hn hc
  · exact of_goto h hn (.inl rfl)

/-- A purchase up to its reservation. -/
theorem Phase.step_preparing (hsem : sem env i a db = some e) (hn : db.orders.table.next = id)
    (hi : i.isPreparing) : e.spawned = [] ∧ Phase id e.shared e.next := by
  cases i <;> simp only [Instr.isPreparing, Bool.false_eq_true] at hi
  case create =>
    refine of_guarded hsem hn ?_
    unfold create
    dsimp only
    split
    · exact .inl rfl
    · split
      · exact .inr ⟨_, rfl, rfl⟩
      · exact .inl rfl
  case recheck =>
    refine of_guarded hsem hn ?_
    unfold recheck
    split
    · split
      · refine .inr ⟨_, rfl, ?_⟩
        split <;> rfl
      · exact .inl rfl
    · exact .inl rfl
  all_goals
    cases a <;> simp only [sem, reduceCtorEq] at hsem <;>
      try exact of_goto hsem hn (.inl rfl)
  case checkOffer.offer =>
    split at hsem
    · exact of_goto hsem hn (.inr ⟨_, rfl, rfl⟩)
    · exact of_goto hsem hn (.inl rfl)
  case checkOperator.operators | recheckOffer.offer =>
    refine of_goto hsem hn ?_
    split
    · exact .inr ⟨_, rfl, rfl⟩
    · exact .inl rfl
  case snapshot.activations => exact of_goto hsem hn (.inr ⟨_, rfl, rfl⟩)
  case reserve.ok =>
    split at hsem
    case h_1 _ _ hrsv =>
      cases hsem
      obtain ⟨rfl, hr⟩ := reserve_row hrsv
      subst hn
      exact ⟨rfl, .reserved _ ((hr _).trans (if_pos rfl)) rfl (.inr (.inl rfl))⟩
    case h_2 => exact of_goto hsem hn (.inl rfl)

/-- **A step of a purchase** for which the provider creates no activation. -/
theorem Phase.step (h : Phase id db [i]) (hsem : sem env i a db = some e) (hno : NoActivation i a) :
    e.spawned = [] ∧ Phase id e.shared e.next := by
  cases h with
  | preparing hn hc =>
    obtain ⟨i', hc, hi⟩ := hc.resolve_left nofun
    obtain rfl := singleton_inj.1 hc
    exact step_preparing hsem hn hi
  | reserved o ho hst hc =>
    obtain hc | hc := hc.resolve_left nofun <;> obtain rfl := singleton_inj.1 hc
    · cases a <;> simp only [sem, reduceCtorEq] at hsem <;> obtain rfl := some.inj hsem
      case ok =>
        have hr := db.orders.get?_modify (Db.startedRow db.now) (fun _ => rfl) ho id
        exact ⟨rfl, .marked _ (hr.trans (if_pos rfl)) rfl (.inr (.inl rfl))⟩
      case abort => exact ⟨rfl, .reserved o ho hst (.inr (.inr rfl))⟩
    · cases a <;> simp only [abandon, sem, reduceCtorEq] at hsem <;> obtain rfl := some.inj hsem
      case ok =>
        refine ⟨rfl, ?_⟩
        cases hrf : db.refund id .failed "INTERNAL_ERROR" "failed to persist provider request intent"
          [.pendingProvider] with
        | ok =>
          obtain ⟨-, o', ho', href⟩ := refund_row hrf ho
          exact .failed o' ho' href rfl
        | error => exact .reserved o ho hst (.inl rfl)
      case abort => exact ⟨rfl, .reserved o ho hst (.inl rfl)⟩
  | marked o ho hst hc =>
    obtain hc | ⟨i', hc, hi⟩ := hc.resolve_left nofun <;> obtain rfl := singleton_inj.1 hc
    · cases a <;>
        simp only [sem, purchased, bind_none, bind_some, reduceCtorEq] at hsem
      case activation => exact hno.elim
      case error =>
        split at hsem <;> cases hsem
        · exact ⟨rfl, .marked o ho hst (.inr (.inr ⟨_, rfl, .reconcile⟩))⟩
        · exact ⟨rfl, .marked o ho hst (.inr (.inr ⟨_, rfl, .fail _ _⟩))⟩
    · refine ⟨(sem_does_of_later env hsem hi.later).spawned, ?_⟩
      obtain ⟨hs, hn⟩ | ⟨hn, hend⟩ := hi.step hsem hno hst ho (.inl rfl)
      · exact .marked o (hs.symm ▸ ho) hst (.inr (.inr hn))
      · obtain ⟨o', ho', href⟩ | ⟨hs, -⟩ := hend
        · exact .failed o' ho' href hn
        · exact .marked o (hs.symm ▸ ho) hst (.inl hn)
  | failed _ _ _ hc => cases hc

/-- A purchase that is the only process. -/
def creating (db : Db) (user : ℕ) (offerId idempotencyKey : String) : Pool Db Unit Instr where
  shared := db
  threads := [⟨(), [.create user offerId idempotencyKey]⟩]

/-- The steps of a purchase for which the provider creates no activation, with changes of wallets,
settings and the clock by others. -/
def InCreation : Label Db Unit Instr Answer → Pool Db Unit Instr → Prop
  | .step j a, p => ∀ i ∈ p.head? j, NoActivation i a
  | .external db, p => db.orders = p.shared.orders ∧ db.ledger = p.shared.ledger
  | _, _ => False

/-- The phase of a pool with one process. -/
def InPhase (id : ℕ) (p : Pool Db Unit Instr) : Prop :=
  ∃ code : List Instr, p.pending = (code.map ((), ·) : List (Unit × Instr)) ∧ Phase id p.shared code

theorem Phase.length_le {code : List Instr} (h : Phase id db code) : code.length ≤ 1 := by
  cases h with
  | preparing _ hc => obtain rfl | ⟨i, rfl, -⟩ := hc <;> simp
  | reserved _ _ _ hc => obtain rfl | rfl | rfl := hc <;> simp
  | marked _ _ _ hc => obtain rfl | rfl | ⟨i, rfl, -⟩ := hc <;> simp
  | failed _ _ _ hc => simp [hc]

/-- A phase depends on the orders only. -/
theorem Phase.congr {code : List Instr} (h : Phase id db code) (hos : db'.orders = db.orders) :
    Phase id db' code := by
  cases h with
  | preparing hn hc => exact .preparing (hos ▸ hn) hc
  | reserved o ho hst hc => exact .reserved o (hos ▸ ho) hst hc
  | marked o ho hst hc => exact .marked o (hos ▸ ho) hst hc
  | failed o ho href hc => exact .failed o (hos ▸ ho) href hc

theorem InPhase.exec {l : Label Db Unit Instr Answer} (h : InPhase id p)
    (hl : InCreation l p) : InPhase id (exec (sem env) l p) := by
  obtain ⟨code, hpen, hph⟩ := h
  cases l with
  | step j a =>
    obtain hs | ⟨_, i, _, e, hth, hsem, hsh, R, hbef, haft⟩ := exec_cases (sem env) j a p
    · rw [hs]
      exact ⟨code, hpen, hph⟩
    · obtain ⟨rfl, rfl⟩ : code = [i] ∧ R = 0 := by
        have hcons := hpen.symm.trans hbef
        have hcard := congrArg Multiset.card hcons
        have hlen := hph.length_le
        rw [Multiset.coe_card, length_map, Multiset.card_cons] at hcard
        obtain ⟨i', rfl⟩ := length_eq_one_iff.1 (by omega : code.length = 1)
        obtain rfl := Multiset.card_eq_zero.1 (by simpa using hcard.symm : R.card = 0)
        simpa using hcons
      obtain ⟨hspn, hn⟩ := hph.step hsem (hl i (Pool.head?_eq_some hth))
      refine ⟨e.next, ?_, hsh ▸ hn⟩
      rw [haft, Effect.pending, hspn, pendingOf_nil, add_zero, add_zero]
  | external => exact ⟨code, hpen, hph.congr hl.1⟩
  | start | crash => exact hl.elim

/-! ## A reconciliation after the crash -/

/-- A reconciliation that is the only process. -/
def restarted (db : Db) (limit : ℤ) : Pool Db Unit Instr where
  shared := db
  threads := [⟨(), [.reconcile limit]⟩]

/-- The steps of a reconciliation that are favourable for the order `id`, with changes of wallets,
settings and the clock by others. -/
def Recovers (id : ℕ) : Label Db Unit Instr Answer → Pool Db Unit Instr → Prop
  | .step j a, p => ∀ i ∈ p.head? j, Favourable id i a p.shared
  | .external db, p => db.orders = p.shared.orders ∧ db.ledger = p.shared.ledger
  | _, _ => False

theorem Repairs.noActivation (h : Repairs id o i) (hfav : Favourable id i a db) : NoActivation i a := by
  cases h with
  | reconcile => trivial
  | list =>
    obtain ⟨⟨l, hl, hn⟩, -⟩ := hfav rfl
    cases a with
    | activations =>
      cases hl
      exact hn
    | _ => cases hl
  | fail => trivial

/-- A reconciliation that has not started. -/
def Waiting (db : Db) (limit : ℤ) (p : Pool Db Unit Instr) : Prop :=
  p.pending = {((), .reconcile limit)} ∧ p.shared.orders = db.orders

/-- A reconciliation that leaves the order alone. -/
def LeavesAlone (id : ℕ) (o : Order) (p : Pool Db Unit Instr) : Prop :=
  (∀ x ∈ p.pending, Foreign id x.2) ∧ p.shared.orders.get? id = some o

/-- A reconciliation that has refunded the order or is going to. -/
structure Repairing (id : ℕ) (o : Order) (p : Pool Db Unit Instr) : Prop where
  code : ∀ x ∈ p.pending, Foreign id x.2 ∨ Repairs id o x.2
  row : (∃ o', p.shared.orders.get? id = some o' ∧ o'.Refunded) ∨
    p.shared.orders.get? id = some o ∧ ∃ x ∈ p.pending, Repairs id o x.2

variable {p : Pool Db Unit Instr} {l : Label Db Unit Instr Answer}

theorem LeavesAlone.exec (h : LeavesAlone id o p) (hl : Recovers id l p) :
    LeavesAlone id o (exec (sem env) l p) := by
  cases l with
  | step j a =>
    obtain hs | ⟨tag, i, _, e, -, hsem, hsh, R, hbef, haft⟩ := exec_cases (sem env) j a p
    · rwa [hs]
    · obtain ⟨hr, hspn, hn⟩ := (h.1 (tag, i) (hbef ▸ Multiset.mem_cons_self _ _)).step hsem
      refine ⟨?_, by rw [hsh, hr]; exact h.2⟩
      rw [haft]
      exact Effect.forall_pending hspn hn (hbef ▸ h.1)
  | external => exact ⟨h.1, by rw [Threads.exec, hl.1]; exact h.2⟩
  | start | crash => exact hl.elim

theorem Foreign.not_repairs (h : Foreign id i) : ¬ Repairs id o i := by
  rintro ⟨⟩ <;>
  · obtain ⟨-, k, hk, hne⟩ := h
    exact hne (some.inj hk).symm

/-- **A favourable step keeps the repair going.** -/
theorem Repairing.exec (h : Repairing id o p) (hst : o.status = .purchaseUnknown)
    (hl : Recovers id l p) : Repairing id o (exec (sem env) l p) := by
  cases l with
  | step j a =>
    obtain hs | ⟨tag, i, _, e, hth, hsem, hsh, R, hbef, haft⟩ := exec_cases (sem env) j a p
    · rwa [hs]
    have hfav := hl i (Pool.head?_eq_some hth)
    -- what the pool is after the step, given what the step does next
    have hpool (hspn : e.spawned = []) (hn : ∀ j ∈ e.next, Foreign id j ∨ Repairs id o j)
        (hr : (∃ o', e.shared.orders.get? id = some o' ∧ o'.Refunded) ∨
          e.shared.orders.get? id = some o ∧
            ((∃ j ∈ e.next, Repairs id o j) ∨ ∃ x ∈ R, Repairs id o x.2)) :
        Repairing id o (Threads.exec (Sms.sem env) (.step j a) p) := by
      refine ⟨?_, ?_⟩
      · rw [haft]
        exact Effect.forall_pending hspn hn (hbef ▸ h.code)
      · rw [hsh, haft]
        refine hr.imp_right fun ⟨ho, hmore⟩ => ⟨ho, ?_⟩
        obtain ⟨j, hj, hrep⟩ | ⟨x, hx, hrep⟩ := hmore
        · exact ⟨(tag, j), Multiset.mem_add.2 (.inl (Effect.mem_pending hj tag)), hrep⟩
        · exact ⟨x, Multiset.mem_add.2 (.inr hx), hrep⟩
    obtain hfor | hrep := h.code (tag, i) (hbef ▸ Multiset.mem_cons_self _ _)
    · obtain ⟨hs, hspn, hn⟩ := hfor.step hsem
      refine hpool hspn (fun j hj => .inl (hn j hj)) ?_
      rw [hs]
      refine h.row.imp_right fun ⟨ho, x, hx, hrep⟩ => ⟨ho, .inr ⟨x, ?_, hrep⟩⟩
      rw [hbef] at hx
      refine (Multiset.mem_cons.1 hx).resolve_left ?_
      rintro rfl
      exact hfor.not_repairs hrep
    · have hspn := (sem_does_of_later env hsem hrep.later).spawned
      have hno := hrep.noActivation hfav
      obtain ⟨o₁, ho₁, hrow⟩ : ∃ o₁, p.shared.orders.get? id = some o₁ ∧ (o₁ = o ∨ o₁.Refunded) := by
        obtain ⟨o', ho', href⟩ | ⟨ho, -⟩ := h.row
        · exact ⟨o', ho', .inr href⟩
        · exact ⟨o, ho, .inl rfl⟩
      obtain ⟨hs, j, hn, hj⟩ | ⟨hn, hend⟩ := hrep.step hsem hno hst ho₁ (hrow.imp_right And.left)
      · refine hpool hspn (by rw [hn]; simpa using .inr hj) ?_
        rw [hs, hn]
        obtain rfl | href := hrow
        · exact .inr ⟨ho₁, .inl ⟨j, mem_singleton_self j, hj⟩⟩
        · exact .inl ⟨o₁, ho₁, href⟩
      · refine hpool hspn (by simp [hn]) (.inl ?_)
        obtain hrefunded | ⟨hs, hbad⟩ := hend
        · exact hrefunded
        · exact ⟨o₁, hs ▸ ho₁, hrow.resolve_left fun heq => hbad heq hfav⟩
  | external =>
    refine ⟨h.code, ?_⟩
    rw [Threads.exec, hl.1]
    exact h.row
  | start | crash => exact hl.elim

/-- The first step of a reconciliation reads the list of orders. -/
theorem Waiting.exec (h : Waiting db limit p) (hl : Recovers id l p)
    (hcov : db.pendingCount ≤ Db.effectiveLimit limit) (ho : db.orders.get? id = some o) :
    Waiting db limit (exec (sem env) l p) ∨
      (Db.Pending o → o.status = .purchaseUnknown → Repairing id o (exec (sem env) l p)) ∧
      (¬ Db.Pending o → LeavesAlone id o (exec (sem env) l p)) := by
  obtain ⟨hpen, hos⟩ := h
  cases l with
  | step j a =>
    obtain hs | ⟨tag, i, _, e, hth, hsem, hsh, R, hbef, haft⟩ := exec_cases (sem env) j a p
    · exact .inl (by rw [hs]; exact ⟨hpen, hos⟩)
    · right
      obtain ⟨heq, rfl⟩ := Multiset.singleton_eq_cons_iff _ |>.1 (hpen.symm.trans hbef)
      obtain ⟨-, rfl⟩ := Prod.mk.inj heq
      obtain rfl : a = .ok := Answer.eq_ok (hl _ (Pool.head?_eq_some hth))
      obtain rfl := some.inj hsem
      have hlist : ∀ r ∈ p.shared.pendingOrders limit, r.1 = id → r.2 = o ∧ Db.Pending o := by
        rintro ⟨k, o'⟩ hr rfl
        obtain ⟨ho', hpen⟩ := mem_pendingOrders hr
        rw [hos] at ho'
        obtain rfl := mem_unique ho' ho
        exact ⟨rfl, hpen⟩
      have hm {x : Unit × Instr} (hx : x ∈ (exec (sem env) (.step j .ok) p).pending) :
          ∃ r ∈ p.shared.pendingOrders limit, x.2 = reconcileOne r := by
        rw [haft, add_zero, Effect.mem_pending_iff] at hx
        obtain ⟨-, hx⟩ | hx := hx
        · obtain ⟨r, hr, heq⟩ := List.mem_map.1 hx
          exact ⟨r, hr, heq.symm⟩
        · exact absurd hx (Multiset.notMem_zero x)
      have hrow : (exec (sem env) (.step j .ok) p).shared.orders.get? id = some o := by
        rw [hsh, hos]
        exact ho
      refine ⟨fun hpend hst => ⟨fun x hx => ?_, .inr ⟨hrow, (tag, .reconcileOrder id), ?_, .reconcile⟩⟩,
        fun hnot => ⟨fun x hx => ?_, hrow⟩⟩
      · obtain ⟨r, hr, heq⟩ := hm hx
        rw [heq]
        by_cases hid : r.1 = id
        · right
          obtain ⟨hro, -⟩ := hlist r hr hid
          simp only [reconcileOne, hro, hst, hid, reduceCtorEq, false_and, if_false]
          exact .reconcile
        · exact .inl (reconcileOne_foreign hid)
      · rw [haft, add_zero]
        refine Effect.mem_pending (List.mem_map.2 ⟨(id, o), ?_, ?_⟩) tag
        · refine mem_pendingOrders_of_covered ?_ (hos ▸ ho) hpend
          rwa [Db.pendingCount, hos]
        · simp [reconcileOne, hst]
      · obtain ⟨r, hr, heq⟩ := hm hx
        rw [heq]
        exact reconcileOne_foreign fun hid => hnot (hlist r hr hid).2
  | external => exact .inl ⟨hpen, hl.1.trans hos⟩
  | start | crash => exact hl.elim

theorem orderly_restarted (db : Db) (limit : ℤ) :
    Orderly (restarted db limit).shared (restarted db limit).pending := by
  have hz : Orderly db 0 :=
    ⟨fun x hx => absurd hx (Multiset.notMem_zero x), fun _ => Nat.zero_le _,
      fun _ _ hid => absurd hid (Multiset.notMem_zero _)⟩
  exact hz.start rfl

theorem Recovers.admissible (h : Recovers id l p) : Admissible l p := by
  cases l with
  | step => trivial
  | start | crash => exact h.elim
  | external => exact h

/-- A reconciliation executes a bounded number of instructions. -/
theorem reconciliation_ends {more : List (Label Db Unit Instr Answer)}
    (hmore : Along (exec (sem env)) (Recovers id) (restarted db limit) more) :
    executed (sem env) (restarted db limit) more ≤ 6 * Db.effectiveLimit limit + 1 :=
  (orderly_restarted db limit).executed_le (fun _ _ hl => hl.admissible)
    (fun _ _ hl _ heq => by rw [heq] at hl; exact hl) hmore

/-- **Recovery from a crash**: a purchase has reserved its price and crashed, at any point, and the
provider has no activation for it. A favourable reconciliation that covers all pending orders comes
to its end, and it leaves the order failed and refunded if and only if the crash was not between the
reservation and the mark of the attempt. -/
theorem recovered_iff_marked (env : Env) (db : Db) (user : ℕ) (offerId key : String)
    (steps : List (Label Db Unit Instr Answer))
    (hsteps : Along (exec (sem env)) InCreation (creating db user offerId key) steps) (o : Order)
    (ho : (run (exec (sem env)) (creating db user offerId key) steps).shared.orders.get?
      db.orders.table.next = some o)
    (crashed : Db)
    (horders : crashed.orders =
      (run (exec (sem env)) (creating db user offerId key) steps).shared.orders)
    (limit : ℤ) (hcovered : crashed.pendingCount ≤ Db.effectiveLimit limit)
    (more : List (Label Db Unit Instr Answer))
    (hmore : Along (exec (sem env)) (Recovers db.orders.table.next) (restarted crashed limit) more) :
    executed (sem env) (restarted crashed limit) more ≤ 6 * Db.effectiveLimit limit + 1 ∧
    ((∀ t ∈ (run (exec (sem env)) (restarted crashed limit) more).threads, t.code = []) →
      ((∃ o', (run (exec (sem env)) (restarted crashed limit) more).shared.orders.get?
        db.orders.table.next = some o' ∧ o'.status = .failed ∧ o'.refundedQuota = o'.reservedQuota) ↔
      o.status ≠ .pendingProvider)) := by
  refine ⟨reconciliation_ends hmore, fun hended => ?_⟩
  set id := db.orders.table.next
  set q := run (exec (sem env)) (restarted crashed limit) more
  have hrow : crashed.orders.get? id = some o := horders ▸ ho
  have hwaiting : Waiting crashed limit (restarted crashed limit) := ⟨pendingOf_singleton _, rfl⟩
  have hnothing : q.pending = 0 := pendingOf_eq_zero hended
  -- a reconciliation that does not list the order leaves it as it is
  have halone (hnot : ¬ Db.Pending o) : q.shared.orders.get? id = some o := by
    have hend : Waiting crashed limit q ∨ LeavesAlone id o q :=
      run_rule_or (fun p l hl h => (h.exec hl hcovered hrow).imp_right fun hnext => hnext.2 hnot)
        (fun p l hl h => h.exec hl) hwaiting hmore
    obtain ⟨-, hsame⟩ | ⟨-, hsame⟩ := hend
    · exact hsame ▸ hrow
    · exact hsame
  -- one that lists it does not end before it is refunded
  have hrepaired (hstatus : o.status = .purchaseUnknown) :
      ∃ o', q.shared.orders.get? id = some o' ∧ o'.Refunded := by
    have hend : Waiting crashed limit q ∨ Repairing id o q :=
      run_rule_or (fun p l hl h => (h.exec hl hcovered hrow).imp_right fun hnext =>
        hnext.1 (.inl hstatus) hstatus) (fun p l hl h => h.exec hstatus hl) hwaiting hmore
    obtain ⟨hpending, -⟩ | hrepairing := hend
    · exact absurd (hnothing.symm.trans hpending) (Multiset.singleton_ne_zero _).symm
    · refine hrepairing.row.resolve_right fun ⟨_, x, hx, _⟩ => ?_
      exact absurd (hnothing ▸ hx) (Multiset.notMem_zero x)
  obtain ⟨code, -, hphase⟩ : InPhase id (run (exec (sem env)) (creating db user offerId key) steps) :=
    run_rule (fun p l hl h => h.exec hl) ⟨[.create user offerId key], pendingOf_singleton _,
      .preparing rfl (.inr ⟨_, rfl, rfl⟩)⟩ hsteps
  cases hphase with
  | preparing hnext =>
    have hnone : (run (exec (sem env)) (creating db user offerId key) steps).shared.orders.get? id =
        none := by
      rw [← hnext]
      exact get?_next _
    cases hnone.symm.trans ho
  | reserved _ ho₁ hstatus =>
    obtain rfl := mem_unique ho₁ ho
    have hkept := halone (by simp [Db.Pending, hstatus])
    refine ⟨fun ⟨o', ho', hfailed, _⟩ => ?_, fun hne => absurd hstatus hne⟩
    obtain rfl := mem_unique hkept ho'
    cases hstatus.symm.trans hfailed
  | marked _ ho₁ hstatus =>
    obtain rfl := mem_unique ho₁ ho
    exact ⟨fun _ => by simp [hstatus], fun _ => hrepaired hstatus⟩
  | failed o₁ ho₁ hrefunded =>
    obtain rfl := mem_unique ho₁ ho
    have hkept := halone (by simp [Db.Pending, hrefunded.1])
    exact ⟨fun _ => by simp [hrefunded.1], fun _ => ⟨o₁, hkept, hrefunded⟩⟩

/-- A purchase in `exampleOpened` up to its reservation. -/
def reserveSteps : List (Label Db Unit Instr Answer) :=
  [.step 0 .ok, .step 0 (.offer [⟨1, 5⟩]), .step 0 .ok, .step 0 (.offer [⟨1, 5⟩]),
    .step 0 (.activations []), .step 0 .ok]

/-- A purchase in `exampleOpened` up to the mark of its attempt. -/
def markedSteps : List (Label Db Unit Instr Answer) := reserveSteps ++ [.step 0 .ok]

/-- A reconciliation that refunds one order. -/
def recoverSteps : List (Label Db Unit Instr Answer) :=
  [.step 0 .ok, .step 0 .ok, .step 0 (.activations []), .step 0 .ok]

/-- The database 15 minutes after a crash of a purchase that has made some steps. -/
def exampleCrashed (steps : List (Label Db Unit Instr Answer)) : Db :=
  { (run (exec (sem exampleEnv)) (creating exampleOpened.shared 1 "offer" "key") steps).shared with
    now := 900 }

/-- The mark was written when the purchase crashed: the reconciliation refunds it. -/
theorem recovered_iff_marked_marked :
    let p := run (exec (sem exampleEnv)) (restarted (exampleCrashed markedSteps) 20) recoverSteps
    ∃ o, p.shared.orders.get? 1 = some o ∧ o.status = .failed ∧ o.refundedQuota = o.reservedQuota := by
  intro p
  have hsteps : Along (exec (sem exampleEnv)) (OnlySteps fun i a _ => NoActivation i a)
      (creating exampleOpened.shared 1 "offer" "key") markedSteps := by
    decide +kernel
  have hmore : Along (exec (sem exampleEnv)) (OnlySteps (Favourable 1))
      (restarted (exampleCrashed markedSteps) 20) recoverSteps := by
    decide +kernel
  obtain ⟨o, ho, hstatus⟩ :
      ∃ o ∈ (exampleCrashed markedSteps).orders.get? 1, o.status = .purchaseUnknown := by
    decide +kernel
  refine ((recovered_iff_marked exampleEnv exampleOpened.shared 1 "offer" "key" _
    (along_of_onlySteps hsteps fun _ _ _ h => h) o ho (exampleCrashed markedSteps) rfl 20
    (by decide +kernel) recoverSteps (along_of_onlySteps hmore fun _ _ _ h => h)).2
    (by decide +kernel)).2 ?_
  rw [hstatus]
  decide

/-- The purchase crashes right after its reservation. A favourable reconciliation ends without
having seen the order, which keeps the amount. -/
theorem crash_before_mark_keeps_reservation :
    Along (exec (sem exampleEnv)) (OnlySteps fun i a _ => NoActivation i a)
      (creating exampleOpened.shared 1 "offer" "key") reserveSteps ∧
    (exampleCrashed reserveSteps).pendingCount ≤ Db.effectiveLimit 20 ∧
    Along (exec (sem exampleEnv)) (OnlySteps (Favourable 1)) (restarted (exampleCrashed reserveSteps) 20)
      [.step 0 .ok] ∧
    let p := run (exec (sem exampleEnv)) (restarted (exampleCrashed reserveSteps) 20) [.step 0 .ok]
    (∀ t ∈ p.threads, t.code.isEmpty) ∧ (p.shared.orders.get? 1).map (fun o =>
        (o.status, o.reservedQuota, o.refundedQuota, p.shared.now - o.providerRequestStartedAt)) =
          some (.pendingProvider, 5, 0, 900) ∧
      walletOf p.shared.users 1 = 95 := by
  decide +kernel

end LmmApi.HeroSms.Sms
