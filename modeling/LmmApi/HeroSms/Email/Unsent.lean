import LmmApi.HeroSms.Email.Conservation

/-!
# Orders whose purchase is never sent

If the purchase of an order is never sent, and the provider lists no address that could be one of
its, the processes learn nothing about its activations: none gets an address, a provider id or a
refund of its own. What they do with the order is to mark it, to fail it, to claim cancellations of
its activations and to note when they looked at it.

`Instr.Unsent` says which instructions can be pending then, and `Quiet` is the invariant of a pool.
Both have a stage: all processes run, or only a reconciliation does, and in the last stage the order
is one whose outcome is in doubt.
-/

namespace LmmApi.HeroSms.Email

open Guarded Go Threads Attribution Relation List Option Table

/-- Which processes run. -/
inductive Stage
  | running
  /-- All processes have crashed, and a reconciliation runs. -/
  | restarted
  /-- As before, and the outcome of the order is in doubt. -/
  | doubtful
  deriving DecidableEq

variable (stage : Stage) (id : ℕ) (o : Order)

/-- The order is in doubt, and no addresses are to be deleted for it. -/
def Order.InDoubt : Prop :=
  (o.status = .purchaseUnknown ∨ o.status = .reconciling) ∧ o.lastErrorCode ≠ "BATCH_COUNT_MISMATCH"

/-- The purchase of the order is reserved and has not started. -/
def Order.Intended : Prop :=
  o.status = .pendingProvider ∧ o.lastErrorCode = "PROVIDER_INTENT_PENDING"

/-- The order has failed and gave its price back. -/
def Order.Refunded : Prop := o.status = .failed ∧ o.refundedQuota = o.chargeQuota

/-- How far an order has come whose purchase is never sent. -/
def Order.Unsent : Prop :=
  1 ≤ o.quantity ∧ match stage with
    | .doubtful => o.InDoubt
    | _ => o.Intended ∨ o.InDoubt ∨ o.Refunded

/-- Nothing is known of the activations of an order whose purchase is never sent. -/
structure UnsentRows (db : Db) : Prop where
  order : ∀ o, db.orders.get? id = some o → o.Unsent stage
  activations : ∀ aid a, db.activations.get? aid = some a → a.orderId = id →
    Db.UnknownProvider a ∧ a.status ≠ .refunded

/-- The instructions of a reconciliation. -/
def Instr.ofReconciliation : Instr → Bool
  | reconcile _ | reconcileOrder .. | unknownOrder .. | listUnknown .. | deleteCandidates .. | details ..
  | finalize .. | resolve .. | detail .. | prepare .. | commit .. | mark .. | fail .. | release
  | touchOrder _ | reconcileActivations _ | lookup .. | getEmail .. | persist .. | deleteActivation ..
  | compensate .. | touchActivation _ => true
  | _ => false

/-- An instruction that does not know of an address for the order. -/
def Instr.Unaware : Instr → Prop
  | reconcileOrder id' o | unknownOrder id' o | listUnknown id' o =>
    id' = id → o.Unsent stage ∧ o.status ≠ .failed
  | fail id' _ => stage = .doubtful → id' ≠ id
  | mismatch id' _ | deleteBatch id' _ | deleteItem id' _ | finalize id' _ _ | resolve id' _ _ _ _
  | detail id' _ _ _ _ | prepare id' _ _ _ | commit id' _ | mark id' _ _ _ | deleteCandidates id' _
  | details id' _ _ _ => id' ≠ id
  | getEmail _ a | persist _ a _ | deleteActivation _ a => a.orderId ≠ id
  | lookup _ a => a.orderId = id → Db.UnknownProvider a
  | deleteCancelled _ _ orderId | confirmCancel _ _ orderId | compensate _ orderId => orderId ≠ id
  | _ => True

/-- The instructions that can be pending if the purchase of the order is never sent. -/
def Instr.Unsent (i : Instr) : Prop := (stage ≠ .running → i.ofReconciliation) ∧ i.Unaware stage id

/-- The purchase of the order is not sent, and no address of its is listed. -/
def Instr.Silent : Instr → Answer → Db → Prop
  | purchase id' _ _, _, _ => id' ≠ id
  | listUnknown id' o, .pages l, db => id' = id → candidates db id o l = []
  | _, _, _ => True

instance (id : ℕ) (i : Instr) (a : Answer) (db : Db) : Decidable (i.Silent id a db) := by
  induction i using Instr.casesOn with
  | listUnknown => induction a using Answer.casesOn <;> unfold Instr.Silent <;> infer_instance
  | _ => unfold Instr.Silent; infer_instance

section

variable {env : Env} {stage : Stage} {db db' : Db} {id aid : ℕ} {o : Order} {i j : Instr} {a : Answer}
  {e : Effect Db Unit Instr}

/-! ## What is left to do -/

variable {x : Activation} {taken : ℕ → ℕ → ℤ}

theorem UnsentRows.not_known (h : UnsentRows stage id db) (hx : db.activations.get? aid = some x)
    (hpv : trimSpace (x.providerId.getD "") ≠ "") : x.orderId ≠ id := by
  intro hord
  rw [(h.activations aid x hx hord).1.1] at hpv
  exact hpv rfl

theorem purchaseError_unaware {id' : ℕ} (err : ProviderError) (h : id' ≠ id) :
    (purchaseError id' err).Unaware stage id := by
  unfold purchaseError
  dsimp only
  split
  · exact h
  · exact fun _ => h

theorem pendingOrders_status {limit : ℕ} {r : ℕ × Order} (h : r ∈ db.pendingOrders limit) :
    r.2.status = .pendingProvider ∨ r.2.status = .purchaseUnknown ∨ r.2.status = .reconciling := by
  have hm := mem_of_mem_take h
  rw [mem_insertionSort, mem_filter, decide_eq_true_eq] at hm
  exact hm.2

theorem Order.Unsent.not_deleting (h : o.Unsent stage) (hfl : o.status ≠ .failed) :
    o.lastErrorCode ≠ "BATCH_COUNT_MISMATCH" := by
  obtain ⟨-, h⟩ := h
  have hcas : o.Intended ∨ o.InDoubt ∨ o.Refunded := by
    cases stage with
    | doubtful => exact .inr (.inl h)
    | _ => exact h
  rcases hcas with h | h | h
  · rw [h.2]
    decide
  · exact h.2
  · exact absurd h.1 hfl

/-- **What an instruction leaves to do** does not know of an address for the order either. -/
theorem Instr.Unsent.leaves (h : i.Unsent stage id) (hdb : UnsentRows stage id db) (hft : i.Fits db)
    (hsil : i.Silent id a db) (hsem : sem env i a db = some e) :
    ∀ j ∈ e.next, j.Unsent stage id := by
  obtain ⟨hsta, hawa⟩ := h
  -- only a running process has such an instruction
  have hrun {k : Instr} (hi : i.ofReconciliation = false) (hk : k.Unaware stage id) :
      k.Unsent stage id :=
    ⟨fun hs => absurd (hi.symm.trans (hsta hs)) Bool.false_ne_true, hk⟩
  intro j hj
  cases sem_leaves hsem
  case stop | commit | mark | fail | persist | confirmCancel | touchOrder | compensate |
      touchActivation => cases hj
  all_goals try obtain rfl := mem_singleton.1 hj
  case create | reorder | quote | snapshot | reserve | markStarted | cancel =>
    exact hrun rfl trivial
  case acquire =>
    simp only [mem_cons, not_mem_nil, or_false] at hj
    obtain rfl | rfl := hj
    · exact hrun rfl trivial
    · exact ⟨fun _ => rfl, trivial⟩
  case notStarted =>
    exact hrun rfl fun hdou => absurd (hsta (by rw [hdou]; exact nofun)) Bool.false_ne_true
  case purchase | purchaseMismatch => exact hrun rfl hsil
  case purchaseError => exact hrun rfl (purchaseError_unaware _ hsil)
  case mismatch | deleteBatch | deleteFound | deleteItem | deleteCancelled => exact hrun rfl hawa
  case batchDeleted => exact hrun rfl fun _ => hawa
  case finalize | resolve | resolveFound | resolveFailed | resolved | detail | detailFailed |
      prepare | prepareFailed | prepared | commitFailed | getEmail | unknownOrder |
      deleteCandidates | details | detailed | deleteActivation =>
    exact ⟨fun _ => rfl, hawa⟩
  case refresh hx => exact hrun rfl fun hord => (hdb.activations _ _ (mem_activationOf hx) hord).1
  case refreshKnown _ hx hpv => exact hrun rfl (hdb.not_known (mem_activationOf hx) hpv)
  case lookup hkn => exact ⟨fun _ => rfl, fun hord => hkn (hawa hord)⟩
  case claimCancel hcla =>
    split at hj
    · cases hj
    case isFalse hpv =>
      obtain rfl := mem_singleton.1 hj
      refine hrun rfl ?_
      obtain ⟨hbla, -⟩ | ⟨x, hx, hord, htrim, -⟩ := claimCancel_eq_ok hft hcla
      · exact absurd hbla hpv
      · rw [htrim] at hpv
        exact hord ▸ hdb.not_known hx hpv
  case reconcile =>
    obtain ⟨r, hr, rfl⟩ | ⟨n, rfl⟩ := reconcile_mem hj
    · refine ⟨fun _ => rfl, fun hid => ⟨hdb.order r.2 (hid ▸ mem_pendingOrders hr), fun hfl => ?_⟩⟩
      have hst := pendingOrders_status hr
      simp [hfl] at hst
    · exact ⟨fun _ => rfl, trivial⟩
  case reconcileOrder =>
    simp only [mem_cons, not_mem_nil, or_false] at hj
    obtain rfl | rfl | rfl := hj
    · exact ⟨fun _ => rfl, hawa⟩
    · exact ⟨fun _ => rfl, trivial⟩
    · exact ⟨fun _ => rfl, trivial⟩
  case intentAborted hst =>
    refine ⟨fun _ => rfl, fun hdou hid => ?_⟩
    obtain ⟨⟨-, hinD⟩, -⟩ := hawa hid
    rw [hdou] at hinD
    rcases hinD.1 with h | h <;> cases hst.symm.trans h
  case listed ha hlen =>
    refine ⟨fun _ => rfl, ?_⟩
    rintro rfl
    -- without candidates there is nothing to do for an order in doubt
    subst ha
    have hqua := (hawa rfl).1.1
    rw [hsil rfl, length_nil] at hlen
    omega
  case listedMismatch _ hc =>
    refine ⟨fun _ => rfl, ?_⟩
    rintro rfl
    exact (hawa rfl).1.not_deleting (hawa rfl).2 hc
  case candidatesDeleted => exact ⟨fun _ => rfl, fun _ => hawa⟩
  case reconcileActivations =>
    obtain ⟨r, hr, hj⟩ := mem_flatMap.1 hj
    have hg := mem_pendingActivations hr
    unfold reconcileOne at hj
    obtain rfl | hj := mem_cons.1 hj
    · split
      case isTrue hpv => exact ⟨fun _ => rfl, hdb.not_known hg hpv.2⟩
      · exact ⟨fun _ => rfl, fun hord => (hdb.activations r.1 r.2 hg hord).1⟩
    · rw [mem_singleton.1 hj]
      exact ⟨fun _ => rfl, trivial⟩

/-! ## The rows of the order -/

variable {keep : ℕ → Prop} {whole : Prop} {k : ℕ}

/-- A write for another order. -/
theorem Write.elsewhere (h : Write keep whole k db db') (hk : id ≠ k) :
    db'.orders.get? id = db.orders.get? id ∧ ∀ aid x, db'.activations.get? aid = some x →
      x.orderId = id → db.activations.get? aid = some x := by
  refine ⟨?_, fun aid x hx hord => ?_⟩
  · have hp {row : Ledger} (hp : Paid db db' row) (hr : row.orderId = k) :
        db'.orders.get? id = db.orders.get? id := by
      cases hp with
      | nothing _ hos => rw [hos]
      | repeated _ hos => rw [hos]
      | paid _ _ _ _ hos =>
        rw [UniqueTable.get?, hos, hr]
        exact get?_modify_of_ne _ _ hk
    cases h with
    | order _ hos =>
      rw [UniqueTable.get?, hos]
      exact get?_modify_of_ne _ _ hk
    | activations _ _ _ _ helse => rw [helse.orders]
    | refund _ _ _ _ _ _ _ _ _ _ _ _ _ h | whole _ _ _ _ h => exact hp h rfl
    | reserve _ _ hid hos =>
      rw [UniqueTable.get?, hos, get?_insert, if_neg (hid ▸ hk)]
      rfl
  · cases h.origin hx with
    | same hold => exact hold
    | moved _ _ hb' hmv => exact absurd (hord.symm.trans (hmv.same.orderId.trans hb')) hk
    | refunded _ _ hb' hs => exact absurd (hord.symm.trans (hs.orderId.trans hb')) hk
    | new _ hnew => exact absurd (hord.symm.trans hnew) hk

theorem Writes.elsewhere (h : Writes keep whole k db db') (hk : id ≠ k) :
    db'.orders.get? id = db.orders.get? id := by
  induction h with
  | refl => rfl
  | tail _ hw ih => exact (hw.elsewhere hk).1.trans ih

theorem UnsentRows.of_writes (h : UnsentRows stage id db) (hws : Writes keep whole k db db')
    (hk : id ≠ k) : UnsentRows stage id db' := by
  induction hws with
  | refl => exact h
  | tail _ hw ih =>
    obtain ⟨hos, has⟩ := hw.elsewhere hk
    refine ⟨fun o ho => ih.order o (hos ▸ ho), fun aid x hx hord => ?_⟩
    exact ih.activations aid x (has aid x hx hord) hord

/-- An update of activations that does not tell of an address. -/
theorem UnsentRows.modifyWhere (h : UnsentRows stage id db) {p : ℕ → Activation → Prop}
    [∀ aid x, Decidable (p aid x)] {f : Activation → Activation}
    (hf : ∀ x, (f x).orderId = x.orderId ∧ (f x).providerId = x.providerId ∧ (f x).email = x.email)
    (hst : ∀ x, x.status ≠ .refunded → (f x).status ≠ .refunded) {aid : ℕ}
    (hx : (db.activations.table.modifyWhere p f).get? aid = some x) (hord : x.orderId = id) :
    Db.UnknownProvider x ∧ x.status ≠ .refunded := by
  rw [get?_modifyWhere, map_eq_some_iff] at hx
  obtain ⟨y, hy, rfl⟩ := hx
  split at hord
  case isTrue hp =>
    obtain ⟨hs, hpv, hema⟩ := hf y
    obtain ⟨⟨hn, hbla⟩, hop⟩ := h.activations aid y hy (hs.symm.trans hord)
    rw [if_pos hp]
    exact ⟨⟨hpv.trans hn, by rw [hema, hbla]⟩, hst y hop⟩
  case isFalse hp =>
    rw [if_neg hp]
    exact h.activations aid y hy hord

/-- The row of an order after an update. -/
theorem order_modify {f : Order → Order} (hos : db'.orders.table = db.orders.table.modify id f)
    {o' : Order} (ho' : db'.orders.get? id = some o') : ∃ o, db.orders.get? id = some o ∧ o' = f o := by
  rw [UniqueTable.get?, hos, get?_modify_self, map_eq_some_iff] at ho'
  obtain ⟨o, ho, rfl⟩ := ho'
  exact ⟨o, ho, rfl⟩

theorem UnsentRows.reserve (h : UnsentRows .running id db) {p : Purchase} {ids : List String} {now : ℤ}
    {out : ℕ × Db} (hqua : 1 ≤ p.quantity) (hid : db.orders.table.next = id)
    (hrsv : db.reserve (p.order now ids) (p.slots now) = .ok out) : UnsentRows .running id out.2 := by
  have hr := (reserve_row hrsv).2
  simp only [Db.reserve, eq_ok] at hrsv
  obtain ⟨_, -, -, _, -, _, -, _, has, _, -, rfl⟩ := hrsv
  refine ⟨fun o ho => ?_, fun aid x hx hord => ?_⟩
  · rw [UniqueTable.get?, hr, ← hid, get?_insert_self] at ho
    cases ho
    exact ⟨hqua, .inl ⟨rfl, rfl⟩⟩
  · obtain hold | ⟨-, hm⟩ := UniqueTable.get?_insertAll?_cases has hx
    · exact h.activations aid x hold hord
    · obtain ⟨y, hy, rfl⟩ := List.mem_map.1 hm
      obtain ⟨_, -, rfl⟩ := List.mem_map.1 hy
      exact ⟨⟨rfl, rfl⟩, by rintro ⟨⟩⟩

theorem UnsentRows.mark (h : UnsentRows .running id db) {code message : String}
    (hc : code ≠ "BATCH_COUNT_MISMATCH") :
    UnsentRows .running id (db.mark id .purchaseUnknown code message) := by
  refine ⟨fun o' ho' => ?_, fun aid x hx hord => ?_⟩
  · obtain ⟨o, ho, rfl⟩ := order_modify rfl ho'
    exact ⟨(h.order o ho).1, .inr (.inl ⟨.inl rfl, hc⟩)⟩
  · exact h.modifyWhere (f := .withStatus .reconciling db.unix) (fun _ => ⟨rfl, rfl, rfl⟩) (fun _ _ => nofun) hx hord

/-- A claimed cancellation leaves the order in doubt. -/
theorem aggregate_claimed (h : UnsentRows .running id db)
    (hx : db.activations.get? aid = some x) (hord : x.orderId = id)
    (hcla : (db.setActivation aid (Db.claimedRow db.unix) fun _ => rfl).aggregate id = .ok db') :
    UnsentRows .running id db' := by
  have has {aid' : ℕ} {y : Activation}
      (hy : (db.setActivation aid (Db.claimedRow db.unix) fun _ => rfl).activations.get? aid' = some y)
      (hord : y.orderId = id) : Db.UnknownProvider y ∧ y.status ≠ .refunded :=
    h.modifyWhere (f := Db.claimedRow db.unix) (fun _ => ⟨rfl, rfl, rfl⟩) (fun _ _ => nofun) hy hord
  simp only [Db.aggregate, orFail_bind] at hcla
  obtain ⟨o, -, hcla⟩ := hcla
  split at hcla
  · obtain rfl := pure_eq_ok.1 hcla
    exact ⟨h.order, fun _ _ hy => has hy⟩
  · obtain rfl := pure_eq_ok.1 hcla
    refine ⟨fun o' ho' => ?_, fun _ _ hy => has hy⟩
    obtain ⟨o, ho, rfl⟩ := order_modify rfl ho'
    -- the activation itself is to be cancelled
    have hany : (((db.setActivation aid (Db.claimedRow db.unix) fun _ => rfl).activationsOf id).map
        Prod.snd).any fun a => a.status = .pendingProvider ∨ a.status = .reconciling ∨
          a.status = .cancelPending := by
      refine List.any_eq_true.2 ⟨Db.claimedRow db.unix x, List.mem_map.2 ⟨(aid, _), ?_, rfl⟩,
        decide_eq_true (.inr (.inr rfl))⟩
      rw [Db.activationsOf, mem_insertionSort, mem_filter, decide_eq_true_eq]
      exact ⟨get?_eq_some_iff.1 (get?_modify_eq_some hx), hord⟩
    refine ⟨(h.order o ho).1, .inr (.inl ?_)⟩
    have hc : "PURCHASE_PENDING_RECONCILIATION" ≠ "BATCH_COUNT_MISMATCH" := by decide
    simp only [Db.aggregated, hany, if_true]
    exact ⟨.inr rfl, hc⟩

/-- The rows after an order has been failed. -/
theorem fail_row {err : HeroError} (h : db.fail id err = .ok db') (ho : db.orders.get? id = some o) :
    (db' = db ∧ o.status ≠ .pendingProvider) ∨
      db'.activations = (db.failRows id err).activations ∧ o.status ≠ .failed ∧
      ∃ o', db'.orders.get? id = some o' ∧ o'.status = .failed ∧ o'.quantity = o.quantity ∧
        (o'.chargeQuota ≤ 0 ∨ db'.FailedWhole id) := by
  simp only [Db.fail, orFail_bind, ho, some.injEq] at h
  obtain ⟨_, rfl, h⟩ := h
  split at h
  case isTrue hst => exact .inl ⟨(pure_eq_ok.1 h).symm, hst.1⟩
  case isFalse hst =>
    obtain ⟨hp, has⟩ := refundTx_eq_ok h
    refine .inr ⟨has, fun hfl => hst ?_, ?_⟩
    · rw [hfl]
      decide
    have hfl : (db.failRows id err).orders.get? id = _ := get?_modify_eq_some ho
    cases hp with
    | nothing hle hos =>
      rw [hos, hfl]
      exact ⟨_, rfl, rfl, rfl, .inl hle⟩
    | repeated hrep hos _ hled =>
      rw [hos, hfl]
      refine ⟨_, rfl, rfl, rfl, .inr ?_⟩
      obtain ⟨j, r, hr, hk⟩ := hrep
      exact ⟨j, r, hled ▸ hr, hk⟩
    | paid _ _ _ _ hos _ _ _ hled =>
      have hg : db'.orders.get? id = ((db.failRows id err).orders.get? id).map
          fun x => { x with refundedQuota := x.refundedQuota + o.chargeQuota } := by
        rw [UniqueTable.get?, hos, get?_modify_self]
        rfl
      rw [hfl, map_some] at hg
      have hrow : db'.ledger.get? (db.failRows id err).ledger.table.next = some
          { userId := o.userId, orderId := id, amountQuota := o.chargeQuota, key := .orderFailure id } := by
        rw [UniqueTable.get?, hled]
        exact get?_insert_self _ _
      exact ⟨_, hg, rfl, rfl, .inr ⟨_, _, hrow, rfl⟩⟩

/-- What a failed order gave back. -/
theorem refunded_of_failed (h : Accounts db taken) (ho : db.orders.get? id = some o)
    (hst : o.status = .failed) (hwh : o.chargeQuota ≤ 0 ∨ db.FailedWhole id) : o.Refunded := by
  have hx := account_of_get? ho
  refine ⟨hst, ?_⟩
  rcases hwh with hle | hwh
  · have hnn : 0 ≤ o.refundedQuota := h.nonneg id _ hx
    have hch : o.refundedQuota ≤ o.chargeQuota := h.le id _ hx
    omega
  · exact h.whole id _ hx hwh

theorem UnsentRows.fail (h : UnsentRows stage id db) {err : HeroError} (hsta : stage ≠ .doubtful)
    (haccs : Accounts db' taken) (hfl : db.fail id err = .ok db') : UnsentRows stage id db' := by
  have hfl' := hfl
  simp only [Db.fail, orFail_bind] at hfl'
  obtain ⟨o, ho, -⟩ := hfl'
  obtain ⟨rfl, -⟩ | ⟨has, -, o₁, ho₁, hst, hqua, hwh⟩ := fail_row hfl ho
  · exact h
  · refine ⟨fun o' ho' => ?_, fun aid x hx hord => ?_⟩
    · obtain rfl := mem_unique ho₁ ho'
      have href := refunded_of_failed haccs ho₁ hst hwh
      refine ⟨hqua ▸ (h.order o ho).1, ?_⟩
      cases stage with
      | doubtful => exact absurd rfl hsta
      | _ => exact .inr (.inr href)
    · rw [has] at hx
      exact h.modifyWhere (f := .withStatus .cancelled db.unix) (fun _ => ⟨rfl, rfl, rfl⟩)
        (by rintro _ _ ⟨⟩) hx hord

theorem UnsentRows.touchOrder (h : UnsentRows stage id db) : UnsentRows stage id (db.touchOrder id) := by
  refine ⟨fun o' ho' => ?_, h.activations⟩
  obtain ⟨o, ho, rfl⟩ := order_modify (f := fun o => { o with lastReconciledAt := db.now }) rfl ho'
  exact h.order o ho

theorem UnsentRows.touchActivation (h : UnsentRows stage id db) (aid : ℕ) :
    UnsentRows stage id (db.touchActivation aid) :=
  ⟨h.order, fun _ _ hx hord => h.modifyWhere (f := fun x => { x with lastReconciledAt := db.now })
    (fun _ => ⟨rfl, rfl, rfl⟩) (fun _ hs => hs) hx hord⟩

/-- **What an instruction does to the rows of the order.** -/
theorem UnsentRows.step (hdb : UnsentRows stage id db) (h : i.Unsent stage id) (hft : i.Fits db)
    (hrs : Rows db) (haccs : Accounts e.shared taken)
    (hsem : sem env i a db = some e) : UnsentRows stage id e.shared := by
  obtain ⟨hsta, hawa⟩ := h
  have hd := sem_does env hsem hft hrs.tidy
  have hrun (hi : i.ofReconciliation = false) : stage = .running := by
    by_contra hs
    exact Bool.false_ne_true (hi.symm.trans (hsta hs))
  by_cases hid : i.order db = some id
  · cases sem_leaves hsem <;> try exact hdb
    case reserve hrsv =>
      obtain rfl := hrun rfl
      exact hdb.reserve hft.2 (some.inj hid) hrsv
    case markStarted =>
      cases hid
      obtain rfl := hrun rfl
      exact hdb.mark (by decide)
    case fail hfl =>
      cases hid
      exact hdb.fail (fun hs => hawa hs rfl) haccs hfl
    case touchOrder =>
      cases hid
      exact hdb.touchOrder
    case claimCancel hcla =>
      cases hid
      obtain rfl := hrun rfl
      obtain ⟨-, rfl⟩ | ⟨x, hx, hord, -, -, -, hagg⟩ := claimCancel_eq_ok hft hcla
      · exact hdb
      · exact aggregate_claimed hdb hx hord hagg
    case touchActivation => exact hdb.touchActivation _
    all_goals exact absurd (some.inj hid) hawa
  · obtain hsa | ⟨k, hk, hws⟩ := hd.shared
    · rwa [hsa]
    · refine hdb.of_writes hws fun hsa => hid ?_
      rw [hk, hsa]

end

/-! ## Runs -/

variable {env : Env} {stage : Stage} {id : ℕ} {p : Pool Db Unit Instr}
  {l : Label Db Unit Instr Answer}

/-- The steps in which the purchase of the order is not sent and no address of its is listed. -/
def Silent (id : ℕ) : Label Db Unit Instr Answer → Pool Db Unit Instr → Prop
  | .step j a, p => ∀ i ∈ p.head? j, i.Silent id a p.shared
  | _, _ => True

instance (l : Label Db Unit Instr Answer) (p : Pool Db Unit Instr) : Decidable (Silent id l p) := by
  induction l using Label.casesOn <;> unfold Silent <;> infer_instance

/-- The processes do not know of an address for the order. -/
structure Quiet (stage : Stage) (id : ℕ) (p : Pool Db Unit Instr) : Prop where
  sound : Sound p
  accounts : ∃ taken, Accounts p.shared taken
  rows : UnsentRows stage id p.shared
  unsent : ∀ x ∈ p.pending, x.2.Unsent stage id

theorem UnsentRows.congr {db db' : Db} (h : UnsentRows stage id db) (hos : db'.orders = db.orders)
    (has : db'.activations = db.activations) : UnsentRows stage id db' := by
  refine ⟨?_, ?_⟩
  · rw [hos]
    exact h.order
  · rw [has]
    exact h.activations

/-- **A silent step keeps the processes unaware.** New processes start only in the first stage. -/
theorem Quiet.exec (h : Quiet stage id p) (hadm : Admissible l p) (hsil : Silent id l p)
    (hsta : ∀ t, l = .start t → stage = .running) : Quiet stage id (exec (sem env) l p) := by
  obtain ⟨_, haccs⟩ := h.accounts
  have haccs' := Accounts.exec env haccs h.sound hadm
  suffices hn : UnsentRows stage id (Threads.exec (sem env) l p).shared ∧
      ∀ x ∈ (Threads.exec (sem env) l p).pending, x.2.Unsent stage id from
    ⟨h.sound.exec hadm, ⟨_, haccs'⟩, hn.1, hn.2⟩
  cases l with
  | step j a =>
    obtain hsa | ⟨tag, i, _, e, hth, hsem, hsh, R, hbef, haft⟩ := exec_cases (sem env) j a p
    · rw [hsa]
      exact ⟨h.rows, h.unsent⟩
    · have hm : (tag, i) ∈ p.pending := hbef ▸ Multiset.mem_cons_self _ _
      have hi := h.unsent _ hm
      have hft := h.sound.fits _ hm
      refine ⟨?_, ?_⟩
      · rw [hsh] at haccs' ⊢
        exact h.rows.step hi hft h.sound.rows haccs' hsem
      · rw [haft]
        exact Effect.forall_pending (sem_does env hsem hft h.sound.rows.tidy).spawned
          (hi.leaves h.rows hft (hsil i (Pool.head?_eq_some hth)) hsem) (hbef ▸ h.unsent)
  | start t =>
    obtain rfl := hsta t rfl
    obtain ⟨i, rfl, hi⟩ := hadm
    refine ⟨h.rows, ?_⟩
    rw [pending_start, Multiset.forall_mem_cons]
    refine ⟨⟨fun hs => absurd rfl hs, ?_⟩, h.unsent⟩
    cases i <;> trivial
  | crash =>
    rw [shared_crash]
    exact ⟨h.rows, fun x hx => h.unsent x (Multiset.mem_of_le (pending_crash_le _ _ _) hx)⟩
  | external => exact ⟨h.rows.congr hadm.1 hadm.2.1, h.unsent⟩

end LmmApi.HeroSms.Email
