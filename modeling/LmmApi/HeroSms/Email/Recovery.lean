import LmmApi.HeroSms.Email.Unsent
import LmmApi.HeroSms.Sms.Recovery

/-!
# Recovery from a crash of a purchase of addresses

A purchase reserves its price, marks the order and only then asks the provider. If it crashes before
the mark, a reconciliation finds the order with its first error code, fails it and gives the price
back. But the mark and a claimed cancellation of one of the activations give the order another
status and error code, and with these a reconciliation waits for addresses that were never bought:
`aborted_iff_intended`.

`Repairing` says what a reconciliation has still to do for an order, and `Instr.depth` bounds the
instructions it executes.
-/

namespace LmmApi.HeroSms.Email

open Guarded Threads Attribution List Option UniqueTable Table Db Instr

/-! ## Reconciliations -/

def Answer.isOk : Answer → Bool
  | ok => true
  | _ => false

/-- The answers that let a reconciliation do its work for the order `id`: the lease is free, the
database works, and the wallet can take the price. -/
def Instr.Favourable (id : ℕ) : Instr → Answer → Db → Prop
  | reconcile _, a, _ => a.isOk
  | reconcileOrder id' _, a, _ | unknownOrder id' _, a, _ => id' = id → a.isOk
  | fail id' _, a, db => id' = id → a.isOk ∧
    ∀ o ∈ db.orders.get? id, Sms.WalletTakes db.users o.userId o.chargeQuota
  | _, _, _ => True

/-- A listing has at most `addresses` entries, and an order at most `slots` activations. -/
def Instr.Bounded (addresses slots : ℕ) : Instr → Answer → Db → Prop
  | listUnknown .., .pages l, _ => (l.take 10).flatten.length ≤ addresses
  | finalize id _ _, _, db => (db.activationsOf id).length ≤ slots
  | _, _, _ => True

/-- A step that the reconciliation takes for the order `id`. -/
def Instr.Recovers (addresses slots id : ℕ) (i : Instr) (a : Answer) (db : Db) : Prop :=
  i.Silent id a db ∧ i.Favourable id a db ∧ i.Bounded addresses slots a db

instance (id : ℕ) (i : Instr) (a : Answer) (db : Db) : Decidable (i.Favourable id a db) := by
  induction i using Instr.casesOn <;> unfold Instr.Favourable <;> infer_instance

instance (addresses slots : ℕ) (i : Instr) (a : Answer) (db : Db) :
    Decidable (i.Bounded addresses slots a db) := by
  induction i using Instr.casesOn with
  | listUnknown => induction a using Answer.casesOn <;> unfold Instr.Bounded <;> infer_instance
  | _ => unfold Instr.Bounded; infer_instance

instance (addresses slots id : ℕ) (i : Instr) (a : Answer) (db : Db) :
    Decidable (i.Recovers addresses slots id a db) :=
  inferInstanceAs (Decidable (_ ∧ _))

/-- A reconciliation that starts after all processes have crashed. -/
def restarted (db : Db) (limit : ℤ) : Pool Db Unit Instr where
  shared := db
  threads := [⟨(), [.reconcile limit]⟩]

/-- The steps of a reconciliation that are favourable for the order `id`, with changes of wallets,
settings and the clock by others. -/
def Recovers (addresses slots id : ℕ) : Label Db Unit Instr Answer → Pool Db Unit Instr → Prop
  | .step j a, p => ∀ i ∈ p.head? j, i.Recovers addresses slots id a p.shared
  | .external db, p => db.orders = p.shared.orders ∧ db.activations = p.shared.activations ∧
    db.ledger = p.shared.ledger
  | _, _ => False

/-! ## Reconciliations end -/

/-- A bound on the instructions that an instruction leads to, itself included. -/
def Instr.depth (addresses slots : ℕ) : Instr → ℕ
  | touchActivation _ | compensate .. | persist .. | touchOrder _ | release | fail .. | mark .. => 1
  | getEmail .. | deleteActivation .. | commit .. => 2
  | lookup .. => 3
  | prepare _ _ todo _ => todo.length + 3
  | resolve _ _ acts todo _ => 2 * todo.length + acts.length + 4
  | detail _ _ acts todo _ => 2 * todo.length + acts.length + 5
  | finalize _ _ records => 2 * records.length + slots + 5
  | details _ _ l records => 3 * l.length + 2 * records.length + slots + 6
  | deleteCandidates _ l => l.length + 2
  | listUnknown .. => 3 * addresses + slots + 7
  | unknownOrder .. => 3 * addresses + slots + 8
  | reconcileOrder .. => 3 * addresses + slots + 11
  | reconcileActivations limit => 4 * limit + 1
  | reconcile limit => Db.effectiveLimit limit * (3 * addresses + slots + 15) + 2
  | _ => 0

section

variable {env : Env} {db db' : Db} {id aid addresses slots : ℕ} {o : Order} {i : Instr} {a : Answer}
  {e : Effect Db Unit Instr}

theorem length_foldl_fresh (items : List ListItem) (page seen : List ListItem) :
    (page.foldl (fun seen item =>
      if Go.trimSpace item.id = "" ∨
          (items ++ seen).any (fun i => Go.trimSpace i.id = Go.trimSpace item.id) then seen
      else seen ++ [item]) seen).length ≤ seen.length + page.length := by
  induction page generalizing seen with
  | nil => simp
  | cons item page ih =>
    rw [foldl_cons, length_cons]
    refine (ih _).trans ?_
    split
    · omega
    · rw [length_append, length_singleton]
      omega

theorem length_collect (pages : List (List ListItem)) (items : List ListItem) :
    (collect pages items).length ≤ items.length + pages.flatten.length := by
  induction pages generalizing items with
  | nil => simp [collect]
  | cons page pages ih =>
    have hfr := length_foldl_fresh items page []
    rw [length_nil, zero_add] at hfr
    rw [collect, flatten_cons, length_append]
    split
    · rw [length_append]
      omega
    · refine (ih _).trans ?_
      rw [length_append]
      omega

theorem length_candidates (pages : List (List ListItem)) :
    (candidates db id o pages).length ≤ (pages.take 10).flatten.length := by
  have hcol := length_collect (pages.take 10) []
  rw [candidates, length_insertionSort]
  refine (length_filter_le _ _).trans ((length_filter_le _ _).trans ?_)
  simpa using hcol

theorem sum_map_le {β : Type} (l : List β) (f : β → ℕ) (n : ℕ) (h : ∀ x ∈ l, f x ≤ n) :
    (l.map f).sum ≤ l.length * n := by
  have hsum := sum_le_card_nsmul (l.map f) n (by simpa using h)
  simpa using hsum

theorem depth_reconcile (limit : ℤ) : ((reconcile db limit).map (depth addresses slots)).sum <
      depth addresses slots (.reconcile limit) := by
  have hpos : 1 ≤ effectiveLimit limit := by
    unfold effectiveLimit
    split <;> omega
  have hos : (db.pendingOrders (orderLimit (effectiveLimit limit))).length ≤
      effectiveLimit limit := by
    refine (length_take_le _ _).trans ?_
    unfold orderLimit
    omega
  unfold reconcile
  dsimp only
  rw [map_append, sum_append, List.map_map]
  have hfst := sum_map_le (db.pendingOrders (orderLimit (effectiveLimit limit)))
    (depth addresses slots ∘ fun r => reconcileOrder r.1 r.2) (3 * addresses + slots + 11)
    fun _ _ => le_rfl
  have hpro := Nat.mul_le_mul_right (3 * addresses + slots + 11) hos
  have hexp : effectiveLimit limit * (3 * addresses + slots + 15) =
      effectiveLimit limit * (3 * addresses + slots + 11) + effectiveLimit limit * 4 := by
    rw [← Nat.mul_add]
  rw [depth]
  split
  · simp only [map_cons, map_nil, sum_cons, sum_nil, depth]
    omega
  · simp only [map_nil, sum_nil]
    omega

theorem depth_reconcileActivations (limit : ℕ) :
    (((db.pendingActivations limit).flatMap reconcileOne).map (depth addresses slots)).sum ≤
      4 * limit := by
  have hlen : (db.pendingActivations limit).length ≤ limit := length_take_le _ _
  have hone (r : ℕ × Activation) : ((reconcileOne r).map (depth addresses slots)).sum ≤ 4 := by
    unfold reconcileOne
    split <;> simp [depth]
  have hsum := sum_map_le (db.pendingActivations limit)
    (fun r => ((reconcileOne r).map (depth addresses slots)).sum) 4 fun r _ => hone r
  rw [map_flatMap, flatMap_def, sum_flatten, List.map_map]
  exact hsum.trans (by omega)

/-- **Every instruction of a reconciliation leaves less to do.** -/
theorem depth_lessens (hi : i.ofReconciliation) (hbd : i.Bounded addresses slots a db)
    (hsem : sem env i a db = some e) :
    e.weight (depth addresses slots) < i.depth addresses slots := by
  cases sem_leaves hsem with
  | stop => cases i <;> first | exact absurd hi Bool.false_ne_true | simp [Effect.weight, depth]
  | reconcile => simpa [Effect.weight] using depth_reconcile _
  | reconcileActivations =>
    simpa [Effect.weight, depth] using Nat.lt_succ_of_le (depth_reconcileActivations _)
  | @listed l k o ha | @listedMismatch l k o ha =>
    subst ha
    have hle : (candidates db k o l).length ≤ addresses := (length_candidates l).trans hbd
    simp [Effect.weight, depth]
    omega
  | finalize =>
    have hle : (db.activationsOf _).length ≤ slots := hbd
    simp [Effect.weight, depth]
    omega
  | resolveFound | details =>
    simp [Effect.weight, depth]
    omega
  | _ => first | exact absurd hi Bool.false_ne_true | simp [Effect.weight, depth, pendingReconciliation]

/-! ## The repair of an order -/

variable {stage : Stage}

theorem Answer.eq_ok (h : a.isOk) : a = .ok := by
  cases a <;> first | rfl | cases h

/-- An order whose purchase has not started can be failed. -/
theorem exists_fail (err : HeroError) {taken : ℕ → ℕ → ℤ} (haccs : Accounts db taken)
    (hrs : UnsentRows stage id db) (ho : db.orders.get? id = some o)
    (hst : o.status = .pendingProvider)
    (htak : Sms.WalletTakes db.users o.userId o.chargeQuota) : ∃ db', db.fail id err = .ok db' := by
  have hfl : (db.failRows id err).orders.get? id = _ := get?_modify_eq_some ho
  simp only [Db.fail, orFail_bind]
  suffices hrf : ∃ db', (db.failRows id err).refundTx
      { userId := o.userId, orderId := id, amountQuota := o.chargeQuota, key := .orderFailure id } =
        .ok db' by
    obtain ⟨db', hrf⟩ := hrf
    refine ⟨db', o, ho, ?_⟩
    rw [if_neg fun h => h.1 hst, hrf]
  unfold refundTx
  split
  case isTrue => exact ⟨_, rfl⟩
  case isFalse hpos =>
    split
    case h_1 => exact ⟨_, rfl⟩
    case h_2 ledger hins =>
      -- the order has not been refunded before, neither as a whole nor in parts
      have hwh : ¬ db.FailedWhole id := by
        rintro ⟨j, row, hr, hk⟩
        have hfr := not_taken (insert?_eq_some hins).1 hr
          (mem_singleton.2 rfl) (mem_singleton.2 hk.symm)
        exact absurd (lt_next_of_get? hr) (hfr ▸ lt_irrefl _)
      have href : o.refundedQuota = 0 := by
        refine (haccs.parts id _ (account_of_get? ho) hwh).trans (sum_eq_zero fun aid x hx => if_neg ?_)
        exact fun h => (hrs.activations aid x hx h.1).2 h.2
      have hle : o.refundedQuota + o.chargeQuota ≤ o.chargeQuota := by omega
      have hwal := Sms.applyWalletQuotaDelta_of_takes htak (not_le.1 hpos)
      simp only [eq_ok]
      exact ⟨_, _, hfl, hle, _, hwal, rfl⟩

/-- A reconciliation changes the status of the order only where it fails it. -/
theorem calm_row (hsta : stage ≠ .running) (h : i.Unsent stage id) (hft : i.Fits db)
    (hrs : Rows db) (hsem : sem env i a db = some e) (ho : db.orders.get? id = some o) :
    (∃ err, i = .fail id err) ∨ ∃ o', e.shared.orders.get? id = some o' ∧ o'.status = o.status ∧
      o'.refundedQuota = o.refundedQuota ∧ o'.chargeQuota = o.chargeQuota := by
  obtain ⟨hofS, hawa⟩ := h
  have hs (hsh : e.shared.orders.get? id = db.orders.get? id) : ∃ o',
      e.shared.orders.get? id = some o' ∧ o'.status = o.status ∧
        o'.refundedQuota = o.refundedQuota ∧ o'.chargeQuota = o.chargeQuota :=
    ⟨o, hsh.trans ho, rfl, rfl, rfl⟩
  by_cases hid : i.order db = some id
  · cases sem_leaves hsem <;> try exact .inr (hs rfl)
    case reserve | markStarted | claimCancel => exact absurd (hofS hsta) Bool.false_ne_true
    case fail err _ _ => exact .inl ⟨err, by rw [← some.inj hid]⟩
    case touchOrder k =>
      obtain rfl : k = id := some.inj hid
      exact .inr ⟨_, get?_modify_eq_some ho, rfl, rfl, rfl⟩
    all_goals exact absurd (some.inj hid) hawa
  · obtain hsh | ⟨k, hk, hws⟩ := (sem_does env hsem hft hrs.tidy).shared
    · exact .inr (hs (by rw [hsh]))
    · exact .inr (hs (hws.elsewhere fun h => hid (by rw [hk, h])))

/-- What a reconciliation has to do for an order whose purchase has not started. -/
inductive Repairs (id : ℕ) : Instr → Prop
  | order {o : Order} (h : o.Intended) : Repairs id (.reconcileOrder id o)
  | unknown {o : Order} (h : o.Intended) : Repairs id (.unknownOrder id o)
  | fail (err : HeroError) : Repairs id (.fail id err)

/-- The order has been refunded, or that is still to be done. -/
def Repairing (id : ℕ) (p : Pool Db Unit Instr) : Prop :=
  ∃ o, p.shared.orders.get? id = some o ∧
    (o.Refunded ∨ o.status = .pendingProvider ∧ ∃ x ∈ p.pending, Repairs id x.2)

/-- The step of the repair itself. -/
theorem Repairs.step (h : Repairs id i) (hfav : i.Favourable id a db) (hsem : sem env i a db = some e)
    (ho : db.orders.get? id = some o) (hst : o.status = .pendingProvider)
    {taken taken' : ℕ → ℕ → ℤ} (haccs : Accounts db taken) (haccs' : Accounts e.shared taken')
    (hrs : UnsentRows stage id db) : (e.shared = db ∧ ∃ j ∈ e.next, Repairs id j) ∨
      ∃ o', e.shared.orders.get? id = some o' ∧ o'.Refunded := by
  cases h with
  | order hint =>
    obtain rfl := Answer.eq_ok (hfav rfl)
    cases hsem
    exact .inl ⟨rfl, _, mem_cons_self, .unknown hint⟩
  | unknown hint =>
    obtain rfl := Answer.eq_ok (hfav rfl)
    cases hsem
    have hn : ∀ o : Order, o.Intended → unknownOrder db id o = [.fail id intentAborted] :=
      fun _ h => if_pos h
    refine .inl ⟨rfl, .fail id intentAborted, ?_, .fail _⟩
    change _ ∈ unknownOrder db id _
    rw [hn _ hint]
    exact mem_singleton.2 rfl
  | fail err =>
    obtain ⟨hok, htak⟩ := hfav rfl
    obtain rfl := Answer.eq_ok hok
    obtain ⟨db', hfl⟩ := exists_fail err haccs hrs ho hst (htak o ho)
    have hsh : e.shared = db' := by
      simp only [sem, transact, hfl] at hsem
      rw [← some.inj hsem]
      rfl
    rw [hsh] at haccs' ⊢
    obtain ⟨-, hnot⟩ | ⟨-, -, o', ho', hfai, -, hwh⟩ := fail_row hfl ho
    · exact absurd hst hnot
    · exact .inr ⟨o', ho', refunded_of_failed haccs' ho' hfai hwh⟩

end

variable {env : Env} {stage : Stage} {addresses slots id : ℕ} {p : Pool Db Unit Instr}
  {l : Label Db Unit Instr Answer} {db : Db} {o : Order} {limit : ℤ}

theorem Recovers.admissible (h : Recovers addresses slots id l p) : Admissible l p := by
  cases l with
  | step => trivial
  | start | crash => exact h.elim
  | external => exact h

theorem Recovers.silent (h : Recovers addresses slots id l p) : Silent id l p := by
  cases l with
  | step => exact fun i hi => (h i hi).1
  | _ => trivial

theorem Quiet.recovers (hqui : Quiet stage id p) (h : Recovers addresses slots id l p) :
    Quiet stage id (Threads.exec (sem env) l p) :=
  hqui.exec h.admissible h.silent fun t ht => by
    rw [ht] at h
    exact h.elim

/-- A refunded order stays refunded, and a step for another one keeps the repair to be done. -/
theorem Repairing.exec (h : Repairing id p) (hqui : Quiet stage id p) (hsta : stage ≠ .running)
    (hl : Recovers addresses slots id l p) : Repairing id (exec (sem env) l p) := by
  obtain ⟨o, ho, hrepa⟩ := h
  obtain ⟨_, haccs⟩ := hqui.accounts
  have haccs' := Accounts.exec env haccs hqui.sound hl.admissible
  cases l with
  | step j a =>
    obtain hs | ⟨tag, i, _, e, hth, hsem, hsh, R, hbef, haft⟩ := exec_cases (sem env) j a p
    · rw [hs]
      exact ⟨o, ho, hrepa⟩
    · have hm : (tag, i) ∈ p.pending := hbef ▸ Multiset.mem_cons_self _ _
      have hft := hqui.sound.fits _ hm
      have hfav := (hl i (Pool.head?_eq_some hth)).2.1
      have hcalm := calm_row hsta (hqui.unsent _ hm) hft hqui.sound.rows hsem ho
      rw [hsh] at haccs'
      rw [Repairing, hsh, haft]
      rcases hrepa with href | ⟨hst, x, hx, hrep⟩
      · obtain ⟨err, rfl⟩ | ⟨o', ho', hs, hquo, hch⟩ := hcalm
        · -- an order that has failed is not failed again
          refine ⟨o, ?_, .inl href⟩
          cases sem_leaves hsem with
          | stop => exact ho
          | fail hfl =>
            obtain ⟨hs, -⟩ | ⟨-, hnot, -⟩ := fail_row hfl ho
            · rwa [hs]
            · exact absurd href.1 hnot
        · exact ⟨o', ho', .inl ⟨hs.trans href.1, by rw [hquo, hch, href.2]⟩⟩
      · by_cases hi : Repairs id i
        · obtain ⟨hs, k, hk, hrep⟩ | ⟨o', ho', href⟩ :=
            hi.step hfav hsem ho hst haccs haccs' hqui.rows
          · rw [hs]
            exact ⟨o, ho, .inr ⟨hst, (tag, k), Multiset.mem_add.2 (.inl (Effect.mem_pending hk tag)),
              hrep⟩⟩
          · exact ⟨o', ho', .inl href⟩
        · have hxR : x ∈ R := by
            rw [hbef] at hx
            obtain rfl | hx := Multiset.mem_cons.1 hx
            · exact absurd hrep hi
            · exact hx
          obtain ⟨err, rfl⟩ | ⟨o', ho', hs, -⟩ := hcalm
          · exact absurd (.fail err) hi
          · exact ⟨o', ho', .inr ⟨hs.trans hst, x, Multiset.mem_add.2 (.inr hxR), hrep⟩⟩
  | start | crash => exact hl.elim
  | external =>
    refine ⟨o, ?_, hrepa⟩
    rwa [Threads.exec, hl.1]

/-- The reconciliation has not begun. -/
def Waiting (db : Db) (limit : ℤ) (p : Pool Db Unit Instr) : Prop :=
  p.pending = {((), .reconcile limit)} ∧ p.shared.orders = db.orders

/-- How many orders a reconciliation may have to take. -/
def Db.pendingCount (db : Db) : ℕ :=
  (db.orders.table.rows.filter fun r => r.2.status = .pendingProvider ∨
    r.2.status = .purchaseUnknown ∨ r.2.status = .reconciling).length

theorem mem_pendingOrders_of_covered {limit : ℕ} (hcov : db.pendingCount ≤ limit)
    (ho : db.orders.get? id = some o) (hst : o.status = .pendingProvider) :
    (id, o) ∈ db.pendingOrders limit := by
  rw [pendingOrders, take_of_length_le (by rwa [length_insertionSort]),
    mem_insertionSort, mem_filter, decide_eq_true_eq]
  exact ⟨get?_eq_some_iff.1 ho, .inl hst⟩

/-- The first step of a reconciliation takes the order up. -/
theorem Waiting.exec (h : Waiting db limit p) (hl : Recovers addresses slots id l p)
    (hcov : db.pendingCount ≤ orderLimit (effectiveLimit limit))
    (ho : db.orders.get? id = some o) (hint : o.Intended) :
    Waiting db limit (exec (sem env) l p) ∨ Repairing id (exec (sem env) l p) := by
  obtain ⟨hpen, hos⟩ := h
  cases l with
  | step j a =>
    obtain hs | ⟨tag, i, _, e, hth, hsem, hsh, R, hbef, haft⟩ := exec_cases (sem env) j a p
    · rw [hs]
      exact .inl ⟨hpen, hos⟩
    · have hi : (tag, i) ∈ ({((), .reconcile limit)} : Multiset (Unit × Instr)) :=
        hpen ▸ hbef ▸ Multiset.mem_cons_self _ _
      obtain ⟨⟩ := Multiset.mem_singleton.1 hi
      obtain rfl := Answer.eq_ok (hl _ (Pool.head?_eq_some hth)).2.1
      cases hsem
      right
      refine ⟨o, ?_, .inr ⟨hint.1, ((), .reconcileOrder id o), ?_, .order hint⟩⟩
      · rw [hsh]
        exact hos ▸ ho
      · rw [haft]
        refine Multiset.mem_add.2 (.inl (Effect.mem_pending ?_ ()))
        refine mem_append_left _ (List.mem_map.2 ⟨(id, o), ?_, rfl⟩)
        refine mem_pendingOrders_of_covered ?_ (hos ▸ ho) hint.1
        rwa [pendingCount, hos]
  | start | crash => exact hl.elim
  | external => exact .inl ⟨hpen, hl.1.trans hos⟩

/-- A reconciliation executes a bounded number of instructions. -/
theorem reconciliation_ends (h : Quiet stage id (restarted db limit)) (hsta : stage ≠ .running)
    {more : List (Label Db Unit Instr Answer)}
    (hmore : Along (exec (sem env)) (Recovers addresses slots id) (restarted db limit) more) :
    executed (sem env) (restarted db limit) more ≤
      effectiveLimit limit * (3 * addresses + slots + 15) + 2 := by
  have hwei : weight (depth addresses slots) (restarted db limit).pending =
      effectiveLimit limit * (3 * addresses + slots + 15) + 2 := by
    simp [restarted, Pool.pending, weight_pendingOf, depth]
  rw [← hwei]
  refine executed_le_of_lessens (hmore.of_invariant (P := Quiet stage id) (fun p l hl h => ?_)
    (fun p l hl h => h.recovers hl) h)
  cases l with
  | step =>
    intro tag i rest e hth hsem
    obtain ⟨-, R, hbef, -⟩ := exec_of_sem hth hsem
    have hi := h.unsent (tag, i) (hbef ▸ Multiset.mem_cons_self _ _)
    exact depth_lessens (hi.1 hsta) (hl i (Pool.head?_eq_some hth)).2.2 hsem
  | start | crash => exact hl.elim
  | external => trivial

/-- The database after a run from `exampleOpened`. -/
def exampleCrashed (steps : List (Label Db Unit Instr Answer)) : Db :=
  (run (exec (sem exampleEnv)) exampleOpened steps).shared

/-- The reconciliation of one order without a listing. -/
def recoverSteps : List (Label Db Unit Instr Answer) :=
  [.step 0 .ok, .step 0 .ok, .step 0 .ok, .step 0 .ok, .step 0 .ok, .step 0 .ok, .step 0 .ok]

end LmmApi.HeroSms.Email
