import LmmApi.HeroSms.Sms.Process

/-!
# What a process can write

`Write db early id db'` lists what one instruction can do to the database for the order `id`: a move
of the order to another status, the mark of its purchase attempt, its reservation, its activation
with a partial refund, and its refund. `sem_does` says that every instruction does one of these for
the order it is about, or nothing.

The mark is an update without a condition, and a refund has the condition that its caller gives, so
this needs that the instruction is one that the processes come to, `Instr.Ok`, and that the order of
a mark is still in the status in which it was created.
-/

namespace LmmApi.HeroSms.Sms

open Guarded Threads List Option UniqueTable Instr

/-! ## Writes -/

/-- The amounts of an order are the same. -/
structure Order.SameMoney (o o' : Order) : Prop where
  userId : o'.userId = o.userId
  reservedQuota : o'.reservedQuota = o.reservedQuota
  chargeQuota : o'.chargeQuota = o.chargeQuota
  refundedQuota : o'.refundedQuota = o.refundedQuota

/-- The moves between statuses that no money goes with, after the mark of the purchase attempt. -/
inductive Status.Moves : Status → Status → Prop
  | same (s : Status) : Moves s s
  | reject : Moves .purchaseUnknown .cancelPending
  | cancel : Moves .active .cancelPending
  | code : Moves .active .completed
  | lateCode : Moves .cancelPending .completed

/-- The row of the order `id` is changed from `o` to `o'`. -/
structure RowWrite (db : Db) (id : ℕ) (o o' : Order) (db' : Db) : Prop where
  before : db.orders.get? id = some o
  after : ∀ j, db'.orders.get? j = if j = id then some o' else db.orders.get? j

/-- An amount is added to the wallet of a user and recorded in the ledger, if it is positive. -/
inductive Paid (db db' : Db) (row : Ledger) : Prop
  | nothing (h : row.amountQuota ≤ 0) (husers : db'.users = db.users)
      (hledger : db'.ledger.table = db.ledger.table)
  | paid (hpos : 0 < row.amountQuota) (u : User) (hu : db.users.get? row.userId = some u)
      (husers : db'.users = db.users.modify row.userId (User.addQuota row.amountQuota))
      (hledger : db'.ledger.table = db.ledger.table.insert row)

theorem Paid.congr {db db₁ db' : Db} {row : Ledger} (h : Paid db db₁ row)
    (hus : db'.users = db₁.users) (hled : db'.ledger = db₁.ledger) : Paid db db' row := by
  cases h with
  | nothing h hus₁ hled₁ => exact .nothing h (hus.trans hus₁) (hled ▸ hled₁)
  | paid hpos u hu hus₁ hled₁ => exact .paid hpos u hu (hus.trans hus₁) (hled ▸ hled₁)

/-- What an instruction can do to the database for the order `id`. Only an instruction that comes
before the call of the provider, which `early` says, takes an order out of its first status. -/
inductive Write (db : Db) (early : Prop) (id : ℕ) (db' : Db) : Prop
  | move (o o' : Order) (hrow : RowWrite db id o o' db')
      (hledger : db'.ledger = db.ledger) (husers : db'.users = db.users)
      (hmoney : o.SameMoney o') (hstatus : o.status.Moves o'.status)
  | mark (hearly : early) (o o' : Order) (hrow : RowWrite db id o o' db')
      (hledger : db'.ledger = db.ledger) (husers : db'.users = db.users)
      (hmoney : o.SameMoney o') (hstatus : o.status = .pendingProvider)
      (hstatus' : o'.status = .purchaseUnknown)
  | reserve (o : Order) (hid : id = db.orders.table.next)
      (horders : ∀ j, db'.orders.get? j = if j = id then some o else db.orders.get? j)
      (hledger : db'.ledger.table =
        db.ledger.table.insert ⟨o.userId, id, -o.chargeQuota, .reserve id⟩)
      (u : User) (hu : db.users.get? o.userId = some u)
      (husers : db'.users = db.users.modify o.userId (User.addQuota (-o.chargeQuota)))
      (hstatus : o.status = .pendingProvider) (hcharge : 0 ≤ o.chargeQuota)
      (hreserved : o.reservedQuota = o.chargeQuota) (hrefunded : o.refundedQuota = 0)
  | activate (o o' : Order) (hrow : RowWrite db id o o' db')
      (hpaid : Paid db db' ⟨o.userId, id, o.chargeQuota - o'.chargeQuota, .priceRefund id⟩)
      (hstatus : o.status = .purchaseUnknown) (hstatus' : o'.status = .active)
      (huser : o'.userId = o.userId) (hreserved : o'.reservedQuota = o.reservedQuota)
      (hcharge : 0 ≤ o'.chargeQuota) (hle : o'.chargeQuota ≤ o.chargeQuota)
      (hrefunded : o'.refundedQuota = o.refundedQuota + (o.chargeQuota - o'.chargeQuota))
  | refund (o o' : Order) (hrow : RowWrite db id o o' db')
      (hpaid : Paid db db' ⟨o.userId, id, o.reservedQuota - o.refundedQuota, .refund id⟩ ∨
        ∃ j row, db.ledger.get? j = some row ∧ row.key = .refund id)
      (hstatus : ¬ o.status.Terminal) (hearly : o.status = .pendingProvider → early)
      (hstatus' : o'.status = .failed ∨ o'.status = .cancelled)
      (huser : o'.userId = o.userId) (hreserved : o'.reservedQuota = o.reservedQuota)
      (hcharge : o'.chargeQuota = o.chargeQuota) (hrefunded : o'.refundedQuota = o.reservedQuota)

/-- The database is as before, or was written. -/
def Changes (db : Db) (early : Prop) (id : ℕ) (db' : Db) : Prop := db' = db ∨ Write db early id db'

/-- What a write does to the status of an order. -/
theorem Write.status {db db' : Db} {early : Prop} {id j : ℕ} {o : Order}
    (h : Write db early id db') (ho : db.orders.get? j = some o) :
    ∃ o', db'.orders.get? j = some o' ∧ (o'.status = o.status ∨
      ¬ o.status.Terminal ∧ (o.status = .pendingProvider → j = id ∧ early)) := by
  have hr {o₁ o₂ : Order} (hr : RowWrite db id o₁ o₂ db')
      (hst : o₂.status = o₁.status ∨
        ¬ o₁.status.Terminal ∧ (o₁.status = .pendingProvider → early)) :
      ∃ o', db'.orders.get? j = some o' ∧ (o'.status = o.status ∨
        ¬ o.status.Terminal ∧ (o.status = .pendingProvider → j = id ∧ early)) := by
    by_cases hj : j = id
    · subst hj
      obtain rfl := mem_unique hr.before ho
      refine ⟨o₂, (hr.after j).trans (if_pos rfl), hst.imp_right fun h => ⟨h.1, fun h' => ?_⟩⟩
      exact ⟨rfl, h.2 h'⟩
    · exact ⟨o, ((hr.after j).trans (if_neg hj)).trans ho, .inl rfl⟩
  cases h with
  | move o₁ o₂ hw _ _ _ hst =>
    refine hr hw ?_
    revert hst
    generalize o₁.status = s, o₂.status = s'
    rintro ⟨⟩ <;> simp [Status.Terminal]
  | mark hear _ _ hw _ _ _ hst => exact hr hw (.inr ⟨by rw [hst]; decide, fun _ => hear⟩)
  | reserve _ hid hos =>
    have hj : j ≠ id := by
      rintro rfl
      rw [hid] at ho
      cases ho.symm.trans db.orders.table.get?_next
    exact ⟨o, ((hos j).trans (if_neg hj)).trans ho, .inl rfl⟩
  | activate _ _ hw _ hst =>
    exact hr hw (.inr ⟨by rw [hst]; decide, fun h => absurd (hst.symm.trans h) nofun⟩)
  | refund _ _ hw _ hst hear => exact hr hw (.inr ⟨hst, hear⟩)

/-! ## Statements -/

section Statements

variable {db db' : Db} {early : Prop} {id : ℕ} {o : Order} {row : Ledger} {p : Order → Prop}
  [DecidablePred p] {f : Order → Order} {hf : ∀ o, (f o).keys = o.keys}

theorem update_eq_some (h : db.update id p f hf = some db') :
    ∃ o, p o ∧ RowWrite db id o (f o) db' ∧ db'.ledger = db.ledger ∧ db'.users = db.users := by
  simp only [Db.update, map_eq_some_iff, filter_eq_some_iff, decide_eq_true_eq] at h
  obtain ⟨o, ⟨ho, hp⟩, rfl⟩ := h
  exact ⟨o, hp, ⟨ho, db.orders.get?_modify f hf ho⟩, rfl, rfl⟩

/-- A conditional update that keeps the amounts. -/
theorem update_write (h : db.update id p f hf = some db')
    (hst : ∀ o, p o → o.status.Moves (f o).status)
    (hmon : ∀ o : Order, o.SameMoney (f o) := by exact fun _ => ⟨rfl, rfl, rfl, rfl⟩) :
    Write db early id db' := by
  obtain ⟨o, hp, hr, hled, hus⟩ := update_eq_some h
  exact .move o (f o) hr hled hus (hmon o) (hst o hp)

theorem getD_update_changes (hst : ∀ o, p o → o.status.Moves (f o).status)
    (hmon : ∀ o : Order, o.SameMoney (f o) := by exact fun _ => ⟨rfl, rfl, rfl, rfl⟩) :
    Changes db early id ((db.update id p f hf).getD db) := by
  cases h : db.update id p f hf with
  | none => exact .inl rfl
  | some => exact .inr (update_write h hst hmon)

theorem reserve_row {p : Order} {out : ℕ × Db} (h : db.reserve p = .ok out) :
    out.1 = db.orders.table.next ∧
      ∀ j, out.2.orders.get? j = if j = db.orders.table.next then some p else db.orders.get? j := by
  simp only [Db.reserve, eq_ok] at h
  obtain ⟨_, -, -, -, _, -, _, hos, _, -, rfl⟩ := h
  exact ⟨rfl, get?_of_insert? hos⟩

theorem reserve_write {p : Order} {out : ℕ × Db} (h : db.reserve p = .ok out)
    (hst : p.status = .pendingProvider) (hch : 0 ≤ p.chargeQuota)
    (hres : p.reservedQuota = p.chargeQuota) (href : p.refundedQuota = 0) :
    Write db early db.orders.table.next out.2 := by
  have hr := (reserve_row h).2
  simp only [Db.reserve, eq_ok, updateWalletQuotaByDelta_eq_ok] at h
  obtain ⟨_, -, -, -, _, ⟨-, u, hu, -, -, rfl⟩, _, -, _, hled, rfl⟩ := h
  exact .reserve p rfl hr (insert?_eq_some hled).2 u hu rfl hst hch hres href

theorem reject_write {activationId : String} {e : HeroError}
    (h : db.reject id activationId e = .ok db') : Write db early id db' := by
  simp only [Db.reject, eq_ok, filter_eq_some_iff, decide_eq_true_eq] at h
  obtain ⟨o, ⟨ho, hst⟩, _, hos, rfl⟩ := h
  refine .move o _ ⟨ho, get?_of_set? hos ho⟩ rfl rfl ⟨rfl, rfl, rfl, rfl⟩ ?_
  rw [hst]
  exact .reject

theorem pay_eq_ok (h : db.pay row = .ok db') :
    Paid db db' row ∧ db'.orders = db.orders := by
  unfold Db.pay at h
  split at h
  case isTrue hle =>
    obtain rfl := pure_eq_ok.1 h
    exact ⟨.nothing hle rfl rfl, rfl⟩
  case isFalse hpos =>
    simp only [eq_ok] at h
    obtain ⟨_, hus, _, hled, rfl⟩ := h
    obtain ⟨u, hu, rfl⟩ := applyWalletQuotaDelta_eq_ok hus
    exact ⟨.paid (not_le.1 hpos) u hu rfl (insert?_eq_some hled).2, rfl⟩

theorem payTolerant_eq_ok (h : db.payTolerant row = .ok db') :
    (Paid db db' row ∨ ∃ j r, db.ledger.get? j = some r ∧ r.key = row.key) ∧
      db'.orders = db.orders := by
  unfold Db.payTolerant at h
  split at h
  case isTrue hle =>
    obtain rfl := pure_eq_ok.1 h
    exact ⟨.inl (.nothing hle rfl rfl), rfl⟩
  case isFalse hpos =>
    simp only [eq_ok] at h
    obtain ⟨_, hus, rfl⟩ := h
    obtain ⟨u, hu, rfl⟩ := applyWalletQuotaDelta_eq_ok hus
    refine ⟨?_, rfl⟩
    cases hins : db.ledger.insert? row with
    | some => exact .inl (.paid (not_le.1 hpos) u hu rfl (insert?_eq_some hins).2)
    | none =>
      obtain ⟨j, r, hr, k, hk, hk'⟩ := exists_of_insert?_eq_none hins
      obtain rfl : k = row.key := mem_singleton.1 hk
      exact .inr ⟨j, r, hr, (mem_singleton.1 hk').symm⟩

theorem complete_changes {act : Activation} (h : db.complete id act = .ok db') :
    Changes db early id db' := by
  simp only [Db.complete, eq_ok] at h
  obtain ⟨o, ho, h⟩ := h
  split at h
  · exact .inl (pure_eq_ok.1 h).symm
  · simp only [eq_ok] at h
    obtain ⟨hst, -, -, -, _, hact, hle, _, hpay, _, hos, _, -, rfl⟩ := h
    obtain ⟨hp, hs⟩ := pay_eq_ok hpay
    have hcost : 0 ≤ act.cost * (o.priceMultiplier : ℚ) :=
      mul_nonneg act.cost_pos.le o.priceMultiplier.2
    rw [hs] at hos
    refine .inr (.activate o _ ⟨ho, get?_of_set? hos ho⟩ ?_ hst rfl rfl rfl
      (Settings.chargeQuota_nonneg hact hcost) hle rfl)
    exact hp.congr rfl rfl

theorem refund_write {status : Status} {code message : String} {expected : Status}
    (h : db.refund id status code message [expected] = .ok db')
    (hst : status = .failed ∨ status = .cancelled) (hexp : ¬ expected.Terminal)
    (hear : expected = .pendingProvider → early) : Write db early id db' := by
  simp only [Db.refund, eq_ok, mem_singleton, cons_ne_nil, false_or] at h
  obtain ⟨o, ho, hbef, db₁, hpay, _, -, rfl⟩ := h
  obtain ⟨hp, hs⟩ := payTolerant_eq_ok hpay
  refine .refund o (Db.refundedRow db₁.now status code message (o.reservedQuota - o.refundedQuota) o)
    ⟨ho, ?_⟩ ?_ (hbef ▸ hexp) (hbef ▸ hear) hst rfl rfl rfl (add_sub_cancel _ _)
  · intro j
    rw [← hs] at ho ⊢
    exact db₁.orders.get?_modify (Db.refundedRow _ _ _ _ _) (fun _ => rfl) ho j
  · exact hp.imp_left fun hp => hp.congr rfl rfl

end Statements

/-! ## Instructions -/

/-- The instructions of a creation that come before the call of the provider and concern its
order. -/
def Instr.early (id : ℕ) : Instr → ℕ
  | markStarted j => if j = id then 1 else 0
  | refund j _ _ _ expected => if j = id ∧ expected = [.pendingProvider] then 1 else 0
  | _ => 0

/-- The instructions that are not early. Their amounts are not negative, and their refunds are from
one status that is neither the first one nor final. -/
def Instr.Later : Instr → Prop
  | markStarted _ => False
  | recheck p | checkOperator p | recheckOffer p | snapshot p | reserve p _ => 0 ≤ p.chargeQuota
  | refund _ status _ _ expected =>
    (status = .failed ∨ status = .cancelled) ∧
      ∃ t : Status, expected = [t] ∧ ¬ t.Terminal ∧ t ≠ .pendingProvider
  | _ => True

theorem Instr.Later.early_eq_zero {i : Instr} (h : i.Later) (id : ℕ) : i.early id = 0 := by
  cases i with
  | markStarted => exact h.elim
  | refund =>
    obtain ⟨-, t, rfl, -, ht⟩ := h
    simp [early, ht]
  | _ => rfl

/-- The order that an instruction is about, if it exists already. -/
def Instr.subject : Instr → Option ℕ
  | create .. | checkOffer .. | recheck _ | checkOperator _ | recheckOffer _ | snapshot _
  | reserve .. | reconcile _ => none
  | markStarted id | purchase id | complete id _ | reject id _ _ | cancelRejected id
  | refund id _ _ _ _ | refresh _ id | refreshHeld _ id | expire _ id | finalizeClaimed _ id
  | pollStatus id _ | pollState id | completeCode id _ | finalize id _ | finalizeStatus id _ _
  | completePending id _ _ | cancelProvider id _ _ | cancel _ id | claimCancel _ id
  | complain _ id _ | complainHeld _ id _ | claimComplaint _ id _ | submitComplaint id
  | reconcileOrder id | listActive id _ | reconcileCancellation _ id | reconcileComplaint _ id
  | resubmit id _ | complaintState id _ | complaintStatus id _ | complaintChecked id => some id

/-- A bound for the number of instructions that a process executes from an instruction on. -/
def Instr.depth : Instr → ℕ
  | create .. => 14
  | checkOffer .. => 13
  | recheck _ => 12
  | checkOperator _ => 11
  | recheckOffer _ => 10
  | snapshot _ => 9
  | reserve .. | refresh .. => 8
  | markStarted _ | refreshHeld .. | cancel .. => 7
  | purchase _ | expire .. | claimCancel .. | reconcileComplaint .. => 6
  | reconcileOrder _ | finalizeClaimed .. | reconcileCancellation .. => 5
  | listActive .. | finalize .. | resubmit .. | complain .. => 4
  | complete .. | pollStatus .. | finalizeStatus .. | complainHeld .. | complaintState .. => 3
  | reject .. | pollState _ | completePending .. | claimComplaint .. | complaintStatus .. => 2
  | cancelRejected _ | refund .. | completeCode .. | cancelProvider .. | submitComplaint _
  | complaintChecked _ => 1
  | reconcile limit => 6 * Db.effectiveLimit limit + 1

/-- `j` may come after `i`: it is not early, and about the same order. -/
def Instr.Follows (i j : Instr) : Prop := j.Later ∧ (i.subject = none ∨ j.subject = i.subject)

/-- The instructions `next` may come after `i`. -/
def Instr.Leaves (i : Instr) (next : List Instr) : Prop :=
  (∀ j ∈ next, i.Follows j) ∧ (next.map depth).sum < i.depth

theorem Instr.depth_pos (i : Instr) : 0 < i.depth := by
  cases i <;> simp [depth]

theorem Instr.leaves_nil (i : Instr) : i.Leaves [] := ⟨by simp, i.depth_pos⟩

/-- The order that an instruction may write. -/
def Instr.order (db : Db) : Instr → Option ℕ
  | reserve _ _ => some db.orders.table.next
  | markStarted id | complete id _ | reject id _ _ | cancelRejected id | refund id _ _ _ _
  | expire _ id | completeCode id _ | completePending id _ _ | cancelProvider id _ _
  | claimCancel _ id | claimComplaint _ id _ | submitComplaint id | listActive id _
  | resubmit id _ | complaintChecked id => some id
  | _ => none

/-- The refund of an order whose mark failed. -/
def abandon (id : ℕ) : Instr :=
  .refund id .failed "INTERNAL_ERROR" "failed to persist provider request intent" [.pendingProvider]

/-- What an instruction leaves to do: later instructions, or an early one that takes the place of an
early one or belongs to the order that was created. -/
inductive Leads (db : Db) : Instr → Effect Db Unit Instr → Prop
  | later {i : Instr} {e : Effect Db Unit Instr} (h : ∀ j ∈ e.next, i.Follows j) : Leads db i e
  | abandon {id : ℕ} : Leads db (.markStarted id) ⟨db, [abandon id], []⟩
  | created {p : Purchase} {knownIds : List String} {db' : Db} {o : Order}
      (h : db'.orders.get? db.orders.table.next = some o) (hstatus : o.status = .pendingProvider) :
      Leads db (.reserve p knownIds) ⟨db', [.markStarted db.orders.table.next], []⟩

/-- What an instruction does. -/
structure Does (db : Db) (i : Instr) (e : Effect Db Unit Instr) : Prop where
  shared : e.shared = db ∨ ∃ id, i.order db = some id ∧ Write db (i.early id = 1) id e.shared
  leads : Leads db i e
  depth : (e.next.map Instr.depth).sum < i.depth
  spawned : e.spawned = []

variable {db db' : Db} {id : ℕ} {o : Order} {i : Instr} {e : Effect Db Unit Instr} {next : List Instr}
  {early : Prop}

theorem Does.of_read (h : goto db next = some e) (hn : i.Leaves next := by simp) : Does db i e := by
  cases h
  exact ⟨.inl rfl, .later hn.1, hn.2, rfl⟩

/-- The process ends. -/
theorem Does.of_end (h : goto db [] = some e) : Does db i e := .of_read h i.leaves_nil

theorem Does.of_changes (h : goto db' next = some e) (hcha : Changes db (i.early id = 1) id db')
    (hn : i.Leaves next := by simp) (hid : i.order db = some id := by rfl) : Does db i e := by
  cases h
  exact ⟨hcha.imp_right fun hw => ⟨id, hid, hw⟩, .later hn.1, hn.2, rfl⟩

variable {a : Answer}

theorem Does.of_guarded (h : guarded db next a.granted = some e) (hn : i.Leaves next) : Does db i e := by
  obtain ⟨-, h⟩ | h := guarded_eq_some h
  · exact .of_read h hn
  · exact .of_end h

attribute [local simp] Instr.Leaves Instr.Follows Instr.Later Instr.subject Instr.depth

theorem create_leaves (env : Env) (user : ℕ) (offerId key : String) :
    (Instr.create user offerId key).Leaves (create env user offerId key db) := by
  unfold create
  dsimp only
  split
  · exact leaves_nil _
  · split <;> simp

theorem recheck_leaves {p : Purchase} (hp : 0 ≤ p.chargeQuota) :
    (Instr.recheck p).Leaves (recheck p db) := by
  unfold recheck
  split
  · split
    · split <;> simpa using hp
    · exact leaves_nil _
  · exact leaves_nil _

theorem failOrder_later (code message : String) : (failOrder id code message).Later :=
  ⟨.inl rfl, .purchaseUnknown, rfl, by decide, by decide⟩

theorem failOrder_leaves (hi : i.subject = some id) (hdep : 1 < i.depth) (code message : String) :
    i.Leaves [failOrder id code message] :=
  ⟨forall_mem_singleton.2 ⟨failOrder_later code message, .inr hi.symm⟩, hdep⟩

theorem cancellationResult_later : (cancellationResult id o).Later := by
  refine ⟨?_, .cancelPending, rfl, by decide, by decide⟩
  split
  · exact .inl rfl
  · exact .inr rfl

theorem reconcileOne_later (r : ℕ × Order) : (reconcileOne r).Later := by
  unfold reconcileOne
  repeat' split
  all_goals trivial

theorem reconcileOne_depth_le (r : ℕ × Order) : (reconcileOne r).depth ≤ 6 := by
  unfold reconcileOne
  repeat' split
  all_goals simp [depth]

theorem depth_pendingOrders_le (db : Db) (limit : ℤ) :
    (((db.pendingOrders limit).map reconcileOne).map depth).sum ≤ 6 * Db.effectiveLimit limit := by
  have hsum : (((db.pendingOrders limit).map reconcileOne).map depth).sum ≤
      (((db.pendingOrders limit).map reconcileOne).map depth).length • 6 := by
    refine sum_le_card_nsmul _ _ fun n hn => ?_
    rw [List.map_map] at hn
    obtain ⟨r, -, rfl⟩ := List.mem_map.1 hn
    exact reconcileOne_depth_le r
  have hlen : (db.pendingOrders limit).length ≤ Db.effectiveLimit limit := length_take_le _ _
  rw [length_map, length_map, nsmul_eq_mul, Nat.cast_id] at hsum
  omega

theorem priceOf_nonneg {quote : Quote} {multiplier : ℚ≥0} {tiers : List Tier} {cost : ℚ} {charge : ℤ}
    (h : priceOf db quote multiplier tiers = .ok (cost, charge)) : 0 ≤ charge := by
  simp only [priceOf, eq_ok] at h
  obtain ⟨_, -, ⟨hcost, -⟩, _, hch, rfl, rfl⟩ := h
  exact Settings.chargeQuota_nonneg hch (mul_nonneg hcost.le multiplier.2)

/-! ## What an instruction does -/

theorem acceptCancel_changes : Changes db early id (db.acceptCancel id) :=
  getD_update_changes fun _ _ => .same _

theorem completeCode_write {expected : Status}
    (hexp : expected = .active ∨ expected = .cancelPending)
    (h : db.completeCode id o expected = some db') : Write db early id db' := by
  refine update_write h fun o' ho' => ?_
  rcases hexp with rfl | rfl
  · exact ho'.symm ▸ .code
  · exact ho'.symm ▸ .lateCode

theorem refund_does {status expected : Status} {code message : String}
    (hst : status = .failed ∨ status = .cancelled) (hexp : ¬ expected.Terminal)
    (h : goto ((db.refund id status code message [expected]).toOption.getD db) [] = some e) :
    Does db (.refund id status code message [expected]) e := by
  refine .of_changes h ?_
  cases hrf : db.refund id status code message [expected] with
  | error => exact .inl rfl
  | ok =>
    refine .inr (refund_write hrf hst hexp fun hear => ?_)
    simp [early, hear]

/-- What an instruction that is not early does. -/
theorem sem_does_of_later (env : Env) (h : sem env i a db = some e) (hi : i.Later) :
    Does db i e := by
  cases i
  -- The instructions that read the tables alone, and those with a function of their own.
  case create => exact .of_guarded h (create_leaves ..)
  case recheck => exact .of_guarded h (recheck_leaves hi)
  case refreshHeld | cancel | complainHeld =>
    refine .of_guarded h ?_
    simp only [refreshHeld, cancel, complainHeld]
    repeat' split
    all_goals simp
  case refresh | finalizeClaimed | complain | reconcileOrder | reconcileCancellation |
      reconcileComplaint =>
    refine .of_guarded h ?_
    repeat' split
    all_goals simp
  case reconcile limit =>
    refine .of_guarded h ⟨fun j hj => ?_, ?_⟩
    · obtain ⟨r, -, rfl⟩ := List.mem_map.1 hj
      exact ⟨reconcileOne_later r, .inl rfl⟩
    · exact Nat.lt_succ_of_le (depth_pendingOrders_le db limit)
  case markStarted => exact hi.elim
  case complete =>
    simp only [sem, complete] at h
    split at h
    · split at h
      · exact .of_read h (failOrder_leaves rfl (by simp) _ _)
      · split at h
        case h_1 _ hcp => exact .of_changes h (complete_changes hcp)
        · split at h
          · exact .of_read h
          · exact .of_end h
        · exact .of_end h
    · exact .of_read h
    · exact .of_end h
    · cases h
  case finalize =>
    simp only [sem, finalize] at h
    split at h
    · split at h
      · exact .of_end h
      · split at h
        · exact .of_read h ⟨forall_mem_singleton.2 ⟨cancellationResult_later, .inr rfl⟩,
            by simp [cancellationResult]⟩
        · exact .of_read h
    · exact .of_end h
    · cases h
  case cancelProvider =>
    simp only [sem, cancelProvider] at h
    split at h
    · split at h
      · exact .of_end h
      · exact .of_changes h acceptCancel_changes
    · exact .of_end h
    · exact .of_end h
    · cases h
  case purchase =>
    cases a <;> simp only [sem, purchased, bind_none, bind_some, reduceCtorEq] at h
    case activation => exact .of_read h
    case error =>
      split at h
      · exact .of_read h
      · exact .of_read h (failOrder_leaves rfl (by simp) _ _)
  -- The others depend on the answer, and end with most of them.
  all_goals cases a <;> simp only [sem, reduceCtorEq] at h <;> try exact .of_end h
  case checkOffer.offer =>
    split at h
    case h_1 hpri => exact .of_read h (by simpa using priceOf_nonneg hpri)
    case h_2 => exact .of_end h
  case checkOperator.operators | recheckOffer.offer =>
    refine .of_read h ?_
    split
    · simpa using hi
    · exact leaves_nil _
  case snapshot.activations => exact .of_read h (by simpa using hi)
  case reserve.ok =>
    split at h
    case h_2 => exact .of_end h
    case h_1 _ _ hrsv =>
      cases h
      obtain ⟨rfl, hr⟩ := reserve_row hrsv
      exact ⟨.inr ⟨_, rfl, reserve_write hrsv rfl hi rfl rfl⟩,
        .created ((hr _).trans (if_pos rfl)) rfl, by simp, rfl⟩
  case reject.ok =>
    split at h
    case h_1 hrej => exact .of_changes h (.inr (reject_write hrej))
    case h_2 => exact .of_end h
  case cancelRejected.ok => exact .of_changes h acceptCancel_changes
  case refund.ok =>
    obtain ⟨hst, t, rfl, ht, -⟩ := hi
    exact refund_does hst ht h
  case expire.ok => exact .of_changes h (getD_update_changes fun _ ho => ho.2.symm ▸ .cancel)
  case pollStatus.status | finalizeStatus.status | complaintStatus.status =>
    refine .of_read h ?_
    repeat' split
    all_goals simp
  case pollState.state | complaintState.state =>
    refine .of_read h ?_
    split
    · exact ⟨forall_mem_singleton.2
        ⟨⟨.inr rfl, .active, rfl, by decide, by decide⟩, .inr rfl⟩, by simp⟩
    · simp
  case completeCode.ok => exact .of_changes h (getD_update_changes fun _ ho => ho.symm ▸ .code)
  case completePending.ok =>
    split at h
    case h_1 hc => exact .of_changes h (.inr (completeCode_write (.inr rfl) hc))
    case h_2 => exact .of_read h
  case claimCancel.ok =>
    split at h
    case h_1 hcla => exact .of_changes h (.inr (update_write hcla fun _ ho => ho.2.symm ▸ .cancel))
    case h_2 => exact .of_end h
  case claimComplaint.ok =>
    split at h
    case h_1 hcla => exact .of_changes h (.inr (update_write hcla fun _ _ => .same _))
    case h_2 => exact .of_end h
  case listActive.activations =>
    unfold listed at h
    split at h
    · exact .of_read h
    · split at h
      · exact .of_read h (failOrder_leaves rfl (by simp) _ _)
      · exact .of_end h
    · exact .of_changes h (getD_update_changes fun _ _ => .same _)
  case resubmit.ok | resubmit.error =>
    unfold resubmit at h
    split at h
    · exact .of_end h
    · split at h
      · refine .of_changes h (getD_update_changes fun _ _ => .same _) ?_
        split <;> simp
      · exact .of_read h
  case submitComplaint.ok | submitComplaint.error | complaintChecked.ok =>
    exact .of_changes h (getD_update_changes fun _ _ => .same _)

/-- The instructions that processes come to. -/
def Instr.Ok (i : Instr) : Prop := i.Later ∨ (∃ id, i = .markStarted id) ∨ ∃ id, i = abandon id

/-- **What an instruction does**, if the order of a mark is still in its first status. -/
theorem sem_does (env : Env) (h : sem env i a db = some e) (hi : i.Ok)
    (hmk : ∀ id, i = .markStarted id →
      ∃ o, db.orders.get? id = some o ∧ o.status = .pendingProvider) : Does db i e := by
  obtain hlat | ⟨id, rfl⟩ | ⟨id, rfl⟩ := hi
  · exact sem_does_of_later env h hlat
  · obtain ⟨o, ho, hst⟩ := hmk id rfl
    cases a <;> simp only [sem, reduceCtorEq] at h
    case ok =>
      have hr := db.orders.get?_modify (Db.startedRow db.now) (fun _ => rfl) ho
      exact .of_changes h
        (.inr (.mark (by simp [early]) o _ ⟨ho, hr⟩ rfl rfl ⟨rfl, rfl, rfl, rfl⟩ hst rfl))
    case abort =>
      cases h
      exact ⟨.inl rfl, .abandon, by simp, rfl⟩
  · cases a <;> simp only [abandon, sem, reduceCtorEq] at h
    case ok => exact refund_does (.inl rfl) (by decide) h
    case abort => exact .of_end h

end LmmApi.HeroSms.Sms
