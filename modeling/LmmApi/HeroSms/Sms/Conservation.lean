import LmmApi.HeroSms.Sms.Write

/-!
# The money of orders of telephone numbers

In every run of the processes, with any answers of the provider and crashes anywhere, an order has
taken from the wallet of its user what it reserved and did not refund, and the ledger says so. The
accounts of an order follow its status: what was not refunded is its price, or nothing once it has
failed or was cancelled.

`Orderly` is about the pending instructions: before the call of the provider an order is in the
hands of one process only, so the mark without a condition finds the order as it was created.
`Conserved` relates the rows to what the steps for each order took from the wallets.
-/

namespace LmmApi.HeroSms.Sms

open Threads Attribution List Option Table UniqueTable

/-! ## Pending instructions -/

/-- The early instructions of an order are in one place, and an order that is to be marked is in its
first status. -/
structure Orderly (db : Db) (m : Multiset (Unit × Instr)) : Prop where
  ok : ∀ x ∈ m, x.2.Ok
  once : ∀ id, weight (Instr.early id) m ≤ if (db.orders.get? id).isSome then 1 else 0
  unmarked : ∀ tag id, (tag, Instr.markStarted id) ∈ m →
    ∃ o, db.orders.get? id = some o ∧ o.status = .pendingProvider

variable {db db' : Db} {m m' R : Multiset (Unit × Instr)} {tag : Unit} {i : Instr}
  {e : Effect Db Unit Instr}

theorem Orderly.mono (h : Orderly db m) (hle : m' ≤ m) : Orderly db m' where
  ok x hx := h.ok x (Multiset.mem_of_le hle hx)
  once id := by
    obtain ⟨_, rfl⟩ := Multiset.le_iff_exists_add.1 hle
    have hon := h.once id
    rw [weight_add] at hon
    omega
  unmarked tag id hid := h.unmarked tag id (Multiset.mem_of_le hle hid)

theorem Orderly.start (h : Orderly db m) (hi : i.isEntry) : Orderly db ((tag, i) ::ₘ m) := by
  have hlat : i.Later := by cases i <;> trivial
  refine ⟨fun x hx => ?_, fun id => ?_, fun tag' id hid => ?_⟩
  · obtain rfl | hx := Multiset.mem_cons.1 hx
    · exact .inl hlat
    · exact h.ok x hx
  · rw [weight_cons, hlat.early_eq_zero, zero_add]
    exact h.once id
  · obtain heq | hid := Multiset.mem_cons.1 hid
    · cases heq
      exact hlat.elim
    · exact h.unmarked tag' id hid

/-- Rows stay. -/
theorem Does.isSome_le (h : Does db i e) (id : ℕ) : (if (db.orders.get? id).isSome then 1 else 0) ≤
      if (e.shared.orders.get? id).isSome then 1 else 0 := by
  obtain hs | ⟨_, -, hw⟩ := h.shared
  · rw [hs]
  · cases ho : db.orders.get? id with
    | none => exact Nat.zero_le _
    | some =>
      obtain ⟨o', ho', -⟩ := hw.status ho
      rw [ho', isSome_some, isSome_some]

/-- The instructions that an instruction leads to are early only in place of an early one, or for
the new order. -/
theorem Does.early_le (h : Does db i e) (tag : Unit) (id : ℕ) :
    weight (Instr.early id) (e.pending tag) + (if (db.orders.get? id).isSome then 1 else 0) ≤
      i.early id + if (e.shared.orders.get? id).isSome then 1 else 0 := by
  have hrs := h.isSome_le id
  rw [Effect.weight_pending, Effect.weight, h.spawned, map_nil, sum_nil, add_zero]
  cases h.leads with
  | later hlat =>
    have hz : (e.next.map (Instr.early id)).sum = 0 :=
      List.sum_eq_zero fun n hn => by
        obtain ⟨j, hj, rfl⟩ := List.mem_map.1 hn
        exact (hlat j hj).1.early_eq_zero id
    omega
  | abandon =>
    simp only [map_cons, map_nil, sum_cons, sum_nil, abandon, Instr.early, and_true]
    omega
  | @created _ _ _ _ hr =>
    simp only [map_cons, map_nil, sum_cons, sum_nil, Instr.early]
    by_cases hid : db.orders.table.next = id
    · subst hid
      have hno : db.orders.get? db.orders.table.next = none := db.orders.table.get?_next
      simp [hno, hr]
    · simpa [hid] using hrs

theorem Does.mem_pending_iff (h : Does db i e) {tag' : Unit} {j : Instr} :
    (tag', j) ∈ e.pending tag ↔ tag' = tag ∧ j ∈ e.next := by
  rw [Effect.mem_pending_iff, h.spawned, pendingOf_nil]
  simp

theorem Does.next_ok (h : Does db i e) : ∀ j ∈ e.next, j.Ok := by
  cases h.leads with
  | later hlat => exact fun j hj => .inl (hlat j hj).1
  | abandon => exact fun j hj => .inr (.inr ⟨_, mem_singleton.1 hj⟩)
  | created => exact fun j hj => .inr (.inl ⟨_, mem_singleton.1 hj⟩)

variable {taken : ℕ → ℕ → ℤ} {id : ℕ} {o o' : Order} {row : Ledger}

/-- A mark that comes next is the one of a new order. -/
theorem Does.next_unmarked (h : Does db i e) (hid : .markStarted id ∈ e.next) :
    ∃ o, e.shared.orders.get? id = some o ∧ o.status = .pendingProvider := by
  cases h.leads with
  | later hlat => exact (hlat _ hid).1.elim
  | abandon => exact absurd (mem_singleton.1 hid) nofun
  | @created _ _ _ o hr hst =>
    obtain rfl := Instr.markStarted.inj (mem_singleton.1 hid)
    exact ⟨o, hr, hst⟩

/-- **A step keeps the pending instructions orderly.** -/
theorem Orderly.step (h : Orderly db ((tag, i) ::ₘ R)) (hd : Does db i e) :
    Orderly e.shared (e.pending tag + R) := by
  refine ⟨fun x hx => ?_, fun id => ?_, fun tag' id hid => ?_⟩
  · obtain hx | hx := Multiset.mem_add.1 hx
    · exact hd.next_ok x.2 (hd.mem_pending_iff.1 hx).2
    · exact h.ok x (Multiset.mem_cons_of_mem hx)
  · have hon := h.once id
    have hear := hd.early_le tag id
    rw [weight_cons] at hon
    rw [weight_add]
    dsimp only at hon
    omega
  · obtain hid | hid := Multiset.mem_add.1 hid
    · exact hd.next_unmarked (hd.mem_pending_iff.1 hid).2
    · obtain ⟨o, ho, hst⟩ := h.unmarked tag' id (Multiset.mem_cons_of_mem hid)
      obtain hs | ⟨_, -, hw⟩ := hd.shared
      · exact ⟨o, hs.symm ▸ ho, hst⟩
      · obtain ⟨o', ho', hst' | ⟨-, hear⟩⟩ := hw.status ho
        · exact ⟨o', ho', hst'.trans hst⟩
        · -- the step would be a second early instruction of the order
          obtain ⟨rfl, hi⟩ := hear hst
          have hon := h.once id
          have hmk := le_weight_of_mem (w := Instr.early id) hid
          rw [weight_cons, if_pos (by rw [ho, isSome_some])] at hon
          simp only [Instr.early, if_true] at hmk
          dsimp only at hon
          omega

/-! ## Accounts -/

/-- The reservation is refunded. -/
def Order.Closed (o : Order) : Prop := o.status = .failed ∨ o.status = .cancelled
  deriving Decidable

/-- What an order keeps of its reservation. -/
def Order.due (o : Order) : ℤ := if o.Closed then 0 else o.chargeQuota

/-- The accounts of an order. -/
structure Order.Balanced (o : Order) : Prop where
  charge_nonneg : 0 ≤ o.chargeQuota
  charge_le : o.chargeQuota ≤ o.reservedQuota
  refunded : o.refundedQuota = o.reservedQuota - o.due

theorem Order.due_of_open {o : Order} (h : ¬ o.Closed) : o.due = o.chargeQuota := if_neg h

theorem Order.due_of_closed {o : Order} (h : o.Closed) : o.due = 0 := if_pos h

theorem Order.due_nonneg (o : Order) (h : o.Balanced) : 0 ≤ o.due := by
  unfold Order.due
  split
  · exact le_rfl
  · exact h.charge_nonneg

theorem Order.due_le_chargeQuota (o : Order) (h : o.Balanced) : o.due ≤ o.chargeQuota := by
  unfold Order.due
  split
  · exact h.charge_nonneg
  · exact le_rfl

/-- What the order `id` has taken and not given back. -/
def Db.outstanding (db : Db) (id : ℕ) : ℤ :=
  (db.orders.get? id).elim 0 fun o => o.reservedQuota - o.refundedQuota

/-- The sum of the ledger rows of an order. -/
def Db.ledgerSum (db : Db) (id : ℕ) : ℤ :=
  db.ledger.table.sum fun _ l => if l.orderId = id then l.amountQuota else 0

/-- The accounts of all orders, where `taken id user` is what the order `id` took from the wallet of
the user. -/
structure Conserved (db : Db) (taken : ℕ → ℕ → ℤ) : Prop where
  balanced : ∀ id o, db.orders.get? id = some o → o.Balanced
  taken : ∀ id user, taken id user =
    (db.orders.get? id).elim 0 fun o => if user = o.userId then o.reservedQuota - o.refundedQuota else 0
  ledger : ∀ id, db.ledgerSum id = -db.outstanding id
  /-- A refund of the whole reservation is in the ledger only for an order that has failed or was
  cancelled. -/
  refunds : ∀ j l id, db.ledger.get? j = some l → l.key = .refund id →
    ∃ o, db.orders.get? id = some o ∧ o.Closed

/-- What the orders have taken after a change that belongs to `id`. -/
abbrev takenAfter (taken : ℕ → ℕ → ℤ) (id : ℕ) (db db' : Db) (k user : ℕ) : ℤ :=
  taken k user + if k = id then walletOf db.users user - walletOf db'.users user else 0

/-- An amount is added to the wallet of a user and to the ledger rows of an order. -/
structure Booked (db : Db) (id owner : ℕ) (amount : ℤ) (db' : Db) : Prop where
  wallet : ∀ user, walletOf db'.users user =
    walletOf db.users user + if user = owner then amount else 0
  ledger : ∀ k, db'.ledgerSum k = db.ledgerSum k + if k = id then amount else 0

theorem Booked.nothing {id owner : ℕ} (hus : db'.users = db.users)
    (hled : db'.ledger.table = db.ledger.table) : Booked db id owner 0 db' where
  wallet user := by simp [hus]
  ledger k := by simp [Db.ledgerSum, hled]

theorem Booked.insert {u : User} (hu : db.users.get? row.userId = some u)
    (hus : db'.users = db.users.modify row.userId (User.addQuota row.amountQuota))
    (hled : db'.ledger.table = db.ledger.table.insert row) :
    Booked db row.orderId row.userId row.amountQuota db' where
  wallet user := by rw [hus, walletOf_addQuota hu]
  ledger k := by
    rw [Db.ledgerSum, hled, sum_insert]
    simp only [eq_comm (a := k)]
    rfl

theorem Paid.booked (h : Paid db db' row) (hnn : 0 ≤ row.amountQuota) :
    Booked db row.orderId row.userId row.amountQuota db' := by
  cases h with
  | nothing hle hus hled =>
    rw [le_antisymm hle hnn]
    exact .nothing hus hled
  | paid _ _ hu hus hled => exact .insert hu hus hled

/-- A write of the row `id` with the booking that goes with it. -/
theorem Conserved.write (h : Conserved db taken) {o' : Order} {amount : ℤ}
    (haft : ∀ j, db'.orders.get? j = if j = id then some o' else db.orders.get? j)
    (hbk : Booked db id o'.userId amount db') (htak : ∀ user, taken id user =
      if user = o'.userId then o'.reservedQuota - o'.refundedQuota + amount else 0)
    (hout : db.outstanding id = o'.reservedQuota - o'.refundedQuota + amount) (hbal : o'.Balanced)
    (hcl : ∀ o, db.orders.get? id = some o → o.Closed → o'.Closed)
    (hrs : ∀ j l k, db'.ledger.get? j = some l → l.key = .refund k →
      (∃ j', db.ledger.get? j' = some l) ∨ k = id ∧ o'.Closed) :
    Conserved db' (takenAfter taken id db db') where
  balanced k o ho := by
    rw [haft] at ho
    split at ho
    · cases ho
      exact hbal
    · exact h.balanced k o ho
  taken k user := by
    rw [takenAfter, haft, hbk.wallet]
    split
    case isTrue hk =>
      subst hk
      rw [htak, elim_some]
      split <;> ring
    case isFalse => rw [h.taken, add_zero]
  ledger k := by
    have hnow : db'.outstanding k =
        if k = id then o'.reservedQuota - o'.refundedQuota else db.outstanding k := by
      rw [Db.outstanding, haft]
      split <;> rfl
    rw [hbk.ledger, h.ledger, hnow]
    split
    case isTrue hk =>
      subst hk
      rw [hout]
      ring
    case isFalse => rw [add_zero]
  refunds j l k hl hkey := by
    rw [haft]
    obtain ⟨j', hl'⟩ | ⟨rfl, hnow⟩ := hrs j l k hl hkey
    · obtain ⟨o, ho, hst⟩ := h.refunds j' l k hl' hkey
      split
      case isTrue hk => exact ⟨o', rfl, hcl o (hk ▸ ho) hst⟩
      case isFalse => exact ⟨o, ho, hst⟩
    · exact ⟨o', if_pos rfl, hnow⟩

/-- The new rows of a payment. -/
theorem Paid.rows (h : Paid db db' row) {j : ℕ} {l : Ledger}
    (hl : db'.ledger.get? j = some l) : l = row ∨ ∃ j', db.ledger.get? j' = some l := by
  cases h with
  | nothing _ _ hled => exact .inr ⟨j, by rwa [UniqueTable.get?, hled] at hl⟩
  | paid _ _ _ _ hled => exact (get?_cases_of_insert hled hl).imp_right fun hl => ⟨j, hl⟩

/-- A write of a row that there was, with a payment to its user. -/
theorem Conserved.row_write (h : Conserved db taken)
    {amount : ℤ} (hr : RowWrite db id o o' db') (hu : o'.userId = o.userId)
    (hbk : Booked db id o.userId amount db')
    (hamt : o'.reservedQuota - o'.refundedQuota = o.reservedQuota - o.refundedQuota - amount)
    (hbal : o'.Balanced) (hcl : o.Closed → o'.Closed)
    (hrs : ∀ j l k, db'.ledger.get? j = some l → l.key = .refund k →
      (∃ j', db.ledger.get? j' = some l) ∨ k = id ∧ o'.Closed) :
    Conserved db' (takenAfter taken id db db') := by
  refine h.write hr.after (hu ▸ hbk) (fun user => ?_) ?_ hbal (fun o₁ ho₁ => ?_) hrs
  · rw [h.taken, hr.before, elim_some, hu, hamt, sub_add_cancel]
  · rw [Db.outstanding, hr.before, elim_some, hamt, sub_add_cancel]
  · obtain rfl := mem_unique hr.before ho₁
    exact hcl

theorem not_closed_of_not_terminal {o : Order} (h : ¬ o.status.Terminal) : ¬ o.Closed :=
  fun hcl => h (hcl.elim (fun h => .inr (.inr h)) fun h => .inr (.inl h))

/-- A move keeps whether the reservation is refunded. -/
theorem Status.Moves.closed_iff (h : o.status.Moves o'.status) : o'.Closed ↔ o.Closed := by
  unfold Order.Closed
  revert h
  generalize o.status = s, o'.status = s'
  rintro ⟨⟩ <;> simp

theorem Order.Balanced.congr (h : o.Balanced) (hmon : o.SameMoney o')
    (hcl : o'.Closed ↔ o.Closed) : o'.Balanced where
  charge_nonneg := hmon.chargeQuota ▸ h.charge_nonneg
  charge_le := by rw [hmon.chargeQuota, hmon.reservedQuota]; exact h.charge_le
  refunded := by
    have hdue : o'.due = o.due := by
      unfold Order.due
      rw [hmon.chargeQuota]
      exact if_congr hcl rfl rfl
    rw [hmon.refundedQuota, hmon.reservedQuota, hdue]
    exact h.refunded

/-- A move to another status without money. -/
theorem Conserved.move (h : Conserved db taken)
    (hr : RowWrite db id o o' db') (hled : db'.ledger = db.ledger)
    (hus : db'.users = db.users) (hmon : o.SameMoney o') (hcl : o'.Closed ↔ o.Closed) :
    Conserved db' (takenAfter taken id db db') := by
  refine h.row_write hr hmon.userId (.nothing hus (by rw [hled])) ?_
    ((h.balanced id o hr.before).congr hmon hcl) hcl.2 fun j l k hl _ => ?_
  · rw [hmon.reservedQuota, hmon.refundedQuota, sub_zero]
  · exact .inl ⟨j, hled ▸ hl⟩

/-- There is no refund of an order in the ledger as long as it is open. -/
theorem Conserved.not_refunded (h : Conserved db taken) {o : Order}
    (ho : db.orders.get? id = some o) (hop : ¬ o.Closed) :
    ¬ ∃ j row, db.ledger.get? j = some row ∧ row.key = .refund id := by
  rintro ⟨j, row, hr, hk⟩
  obtain ⟨o₁, ho₁, hcl⟩ := h.refunds j row id hr hk
  obtain rfl := mem_unique ho ho₁
  exact hop hcl

/-- **A write keeps the accounts.** -/
theorem Conserved.of_write (h : Conserved db taken) {early : Prop} (hw : Write db early id db') :
    Conserved db' (takenAfter taken id db db') := by
  cases hw with
  | move _ _ hr hled hus hmon hst => exact h.move hr hled hus hmon hst.closed_iff
  | mark _ _ _ hr hled hus hmon hst hst' =>
    exact h.move hr hled hus hmon (by simp [Order.Closed, hst, hst'])
  | reserve o hid hos hled u hu hus hst hch hres href =>
    have hop : ¬ o.Closed := by simp [Order.Closed, hst]
    have hn : db.orders.get? id = none := hid ▸ db.orders.table.get?_next
    have hbk := @Booked.insert db db' ⟨o.userId, id, -o.chargeQuota, .reserve id⟩ u hu hus hled
    refine h.write hos hbk (fun user => ?_) ?_ ⟨hch, hres.ge, ?_⟩ (fun o' ho' => ?_)
      fun j l k hl hk => ?_
    · rw [h.taken, hn, href, hres]
      simp
    · rw [Db.outstanding, hn, href, hres]
      simp
    · rw [Order.due_of_open hop, href, hres, sub_self]
    · cases hn.symm.trans ho'
    · obtain rfl | hl := get?_cases_of_insert hled hl
      · cases hk
      · exact .inl ⟨j, hl⟩
  | activate o o' hr hp hst hst' huser hres hch hle href =>
    have hop : ¬ o.Closed := by simp [Order.Closed, hst]
    have hop' : ¬ o'.Closed := by simp [Order.Closed, hst']
    have hbal := h.balanced id o hr.before
    refine h.row_write hr huser (hp.booked (sub_nonneg.2 hle)) ?_ ⟨hch, ?_, ?_⟩
      (fun hcl => absurd hcl hop) fun j l k hl hk => ?_
    · rw [hres, href]
      ring
    · rw [hres]
      exact hle.trans hbal.charge_le
    · rw [Order.due_of_open hop', href, hbal.refunded, Order.due_of_open hop, hres]
      ring
    · obtain rfl | hold := hp.rows hl
      · cases hk
      · exact .inl hold
  | refund o _ hr hp hst _ hst' huser hres hch href =>
    have hop := not_closed_of_not_terminal hst
    have hbal := h.balanced id o hr.before
    replace hp := hp.resolve_right (h.not_refunded hr.before hop)
    refine h.row_write hr huser (hp.booked ?_) ?_ ⟨?_, ?_, ?_⟩ (fun _ => hst')
      fun j l k hl hk => ?_
    · rw [hbal.refunded, Order.due_of_open hop, sub_sub_cancel]
      exact hbal.charge_nonneg
    · rw [href, hres]
      ring
    · exact hch ▸ hbal.charge_nonneg
    · rw [hch, hres]
      exact hbal.charge_le
    · rw [Order.due_of_closed hst', href, hres, sub_zero]
    · obtain rfl | hold := hp.rows hl
      · exact .inr ⟨(LedgerKey.refund.inj hk).symm, hst'⟩
      · exact .inl hold

/-! ## Runs -/

variable (users : Table User) (settings : Settings) (now : ℤ)

/-- No orders yet, with any users, settings and time. -/
def opened : Pool Db Unit Instr where
  shared := ⟨users, .empty, .empty, settings, now⟩
  threads := []

/-- The order that a step is about. -/
def party : Label Db Unit Instr Answer → Pool Db Unit Instr → Option ℕ
  | .step j _, p =>
    match p.threads[j]? with
    | some ⟨_, i :: _⟩ => i.order p.shared
    | _ => none
  | _, _ => none

theorem orderly_opened :
    Orderly (opened users settings now).shared (opened users settings now).pending where
  ok x hx := absurd hx (Multiset.notMem_zero x)
  once _ := Nat.zero_le _
  unmarked _ _ hid := absurd hid (Multiset.notMem_zero _)

theorem conserved_opened : Conserved (opened users settings now).shared fun _ _ => 0 where
  balanced _ _ ho := nomatch ho
  taken _ _ := rfl
  ledger _ := rfl
  refunds _ _ _ hl := nomatch hl

variable {env : Env} {p : Pool Db Unit Instr} {l : Label Db Unit Instr Answer}

/-- **What a step of a process does** in an orderly pool. -/
theorem exec_does (env : Env) (h : Orderly p.shared p.pending) (j : ℕ) (a : Answer) :
    exec (sem env) (.step j a) p = p ∨
      ∃ tag i e R, party (.step j a) p = i.order p.shared ∧ Does p.shared i e ∧
        (exec (sem env) (.step j a) p).shared = e.shared ∧ p.pending = (tag, i) ::ₘ R ∧
        (exec (sem env) (.step j a) p).pending = e.pending tag + R := by
  obtain hs | ⟨tag, i, _, e, hth, hsem, hsh, R, hbef, haft⟩ := exec_cases (sem env) j a p
  · exact .inl hs
  · have hm : (tag, i) ∈ p.pending := hbef ▸ Multiset.mem_cons_self _ _
    have hd := sem_does env hsem (h.ok _ hm) fun id hid => h.unmarked tag id (hid ▸ hm)
    exact .inr ⟨tag, i, e, R, by simp [party, hth], hd, hsh, hbef, haft⟩

theorem Orderly.exec (h : Orderly p.shared p.pending) (hadm : Admissible l p) :
    Orderly (exec (sem env) l p).shared (exec (sem env) l p).pending := by
  cases l with
  | step j a =>
    obtain hs | ⟨tag, i, e, R, -, hd, hsh, hbef, haft⟩ := exec_does env h j a
    · rwa [hs]
    · rw [hsh, haft]
      exact (hbef ▸ h : Orderly p.shared ((tag, i) ::ₘ R)).step hd
  | start =>
    obtain ⟨i, rfl, hi⟩ := hadm
    rw [pending_start]
    exact h.start hi
  | crash =>
    rw [shared_crash]
    exact h.mono (pending_crash_le _ _ _)
  | external =>
    refine ⟨h.ok, fun id => ?_, fun tag id hid => ?_⟩
    · rw [Threads.exec, hadm.1]
      exact h.once id
    · rw [Threads.exec, hadm.1]
      exact h.unmarked tag id hid

/-- **Processes end**: without new calls, at most as many instructions are executed as the depths of
the pending ones add up to. -/
theorem Orderly.executed_le {ok : Label Db Unit Instr Answer → Pool Db Unit Instr → Prop}
    (h : Orderly p.shared p.pending) (hok : ∀ l p, ok l p → Admissible l p)
    (hsta : ∀ l p, ok l p → ∀ t, l ≠ .start t) {steps : List (Label Db Unit Instr Answer)}
    (halo : Along (Threads.exec (sem env)) ok p steps) :
    executed (sem env) p steps ≤ weight Instr.depth p.pending := by
  refine Threads.executed_le (P := fun p => Orderly p.shared p.pending) hsta ?_
    (fun p l hl h => h.exec (hok l p hl)) h halo
  intro p h tag i a e hm hsem
  have hd := sem_does env hsem (h.ok _ hm) fun id hid => h.unmarked tag id (hid ▸ hm)
  rw [Effect.weight, hd.spawned]
  exact hd.depth

/-- A step that no order is about. -/
theorem Conserved.congr (h : Conserved db taken) (hos : db'.orders = db.orders)
    (hled : db'.ledger = db.ledger) {f : ℕ → ℕ → ℤ} (hf : ∀ k user, f k user = 0) :
    Conserved db' fun k user => taken k user + f k user where
  balanced := by rw [hos]; exact h.balanced
  taken k user := by rw [hf, add_zero, hos]; exact h.taken k user
  ledger k := by
    have hsum := h.ledger k
    rwa [Db.ledgerSum, Db.outstanding, ← hled, ← hos] at hsum
  refunds := by rw [hos, hled]; exact h.refunds

/-- **A step keeps the accounts**: what it takes from the wallets is taken by the order it is about.
-/
theorem Conserved.exec (h : Conserved p.shared taken)
    (hord : Orderly p.shared p.pending) (hadm : Admissible l p) :
    Conserved (exec (sem env) l p).shared fun k user =>
      taken k user + stepDecreaseBy (exec (sem env)) party k
        (fun p => walletOf p.shared.users user) l p := by
  cases l with
  | step j a =>
    obtain hs | ⟨_, i, e, R, hpar, hd, hsh, -⟩ := exec_does env hord j a
    · exact h.congr (by rw [hs]) (by rw [hs]) fun k user => by simp [stepDecreaseBy, hs]
    · obtain hs | ⟨id, hid, hw⟩ := hd.shared
      · exact h.congr (by rw [hsh, hs]) (by rw [hsh, hs]) fun k user => by
          simp [stepDecreaseBy, hsh, hs]
      · have hn := h.of_write hw
        simp only [stepDecreaseBy, hpar, hid, hsh, some.injEq]
        simpa only [eq_comm (a := id)] using hn
  | start => exact h.congr rfl rfl fun k user => rfl
  | crash => exact h.congr (by rw [shared_crash]) (by rw [shared_crash]) fun k user => rfl
  | external => exact h.congr hadm.1 hadm.2 fun k user => rfl

/-- A final status stays. -/
theorem exec_terminal (env : Env) (h : Orderly p.shared p.pending) (hadm : Admissible l p) {o : Order}
    (ho : p.shared.orders.get? id = some o) (htm : o.status.Terminal) :
    ∃ o', (exec (sem env) l p).shared.orders.get? id = some o' ∧ o'.status = o.status := by
  cases l with
  | step j a =>
    obtain hs | ⟨_, i, e, R, -, hd, hsh, -⟩ := exec_does env h j a
    · exact ⟨o, by rwa [hs], rfl⟩
    · rw [hsh]
      obtain hs | ⟨_, -, hw⟩ := hd.shared
      · exact ⟨o, by rwa [hs], rfl⟩
      · obtain ⟨o', ho', hst⟩ := hw.status ho
        exact ⟨o', ho', hst.resolve_right fun hmv => hmv.1 htm⟩
  | start => exact ⟨o, ho, rfl⟩
  | crash => exact ⟨o, by rwa [shared_crash], rfl⟩
  | external => exact ⟨o, by rwa [← hadm.1] at ho, rfl⟩

/-! ### Steps for examples -/

/-- One offer, of country 7 for at most 5 dollars. -/
def exampleEnv : Env where
  sha256Hex s := s
  marshalRequest s := s
  decodeQuote _ := some
    { version := 2, userId := 1, countryId := 7, service := "s", operator := "", cost := some 5,
      multiplier := 1, currencyCode := 840, issuedAt := 0 }

/-- A user with 100 quota, where a dollar is one. -/
def exampleOpened : Pool Db Unit Instr := opened (Table.empty.insert ⟨100, 1, 1, false⟩) ⟨1, 1⟩ 0

/-- The user starts a purchase, which comes to the call of the provider. -/
def buySteps : List (Label Db Unit Instr Answer) :=
  [.start ⟨(), [.create 1 "offer" "key"]⟩, .step 0 .ok, .step 0 (.offer [⟨1, 5⟩]), .step 0 .ok,
    .step 0 (.offer [⟨1, 5⟩]), .step 0 (.activations []), .step 0 .ok, .step 0 .ok]

/-- **The money of orders of telephone numbers**: in every state that the processes can reach, what
the steps for an order took from the wallet of its user, and from no other, is what it reserved and
did not refund; the ledger rows of the order are the same amount; the refunds are those that its
status stands for; and orders stay in a final status. Steps that are about no order leave all
wallets alone. -/
theorem orders_conserved (env : Env) (users : Table User) (settings : Settings) (now : ℤ)
    (steps : List (Label Db Unit Instr Answer))
    (hadm : Along (exec (sem env)) Admissible (opened users settings now) steps) :
    let p := run (exec (sem env)) (opened users settings now) steps
    (∀ id o, p.shared.orders.get? id = some o →
      (∀ user, decreaseBy (exec (sem env)) party id (fun p => walletOf p.shared.users user)
          (opened users settings now) steps =
        if user = o.userId then o.reservedQuota - o.refundedQuota else 0) ∧
      p.shared.ledgerSum id = -(o.reservedQuota - o.refundedQuota) ∧
      0 ≤ o.refundedQuota ∧ o.refundedQuota ≤ o.reservedQuota ∧
      (o.status = .active ∨ o.status = .cancelPending ∨ o.status = .completed →
        o.refundedQuota = o.reservedQuota - o.chargeQuota) ∧
      (o.status = .cancelled ∨ o.status = .failed → o.refundedQuota = o.reservedQuota)) ∧
    (∀ more, Along (exec (sem env)) Admissible p more → ∀ id o, p.shared.orders.get? id = some o →
      o.status.Terminal → ∃ o', (run (exec (sem env)) p more).shared.orders.get? id = some o' ∧
        o'.status = o.status) ∧
    ∀ j a, party (.step j a) p = none →
      (exec (sem env) (.step j a) p).shared.users = p.shared.users := by
  intro p
  obtain ⟨horderly, hconserved⟩ := decreaseBy_rule (μ := fun user p => walletOf p.shared.users user)
    (P := fun p taken => Orderly p.shared p.pending ∧ Conserved p.shared taken)
    (fun p taken l hl h => ⟨h.1.exec hl, h.2.exec h.1 hl⟩)
    ⟨orderly_opened users settings now, conserved_opened users settings now⟩ hadm
  refine ⟨fun id o ho => ?_, fun more hmore id o ho hterminal => ?_, fun j a hparty => ?_⟩
  · have hbalanced := hconserved.balanced id o ho
    have hrefunded := hbalanced.refunded
    refine ⟨fun user => ?_, ?_, ?_, ?_, fun hstatus => ?_, fun hstatus => ?_⟩
    · have htaken := hconserved.taken id user
      rwa [zero_add, ho, elim_some] at htaken
    · have hledger := hconserved.ledger id
      rwa [Db.outstanding, ho, elim_some] at hledger
    · have hdue := o.due_le_chargeQuota hbalanced
      have hle := hbalanced.charge_le
      omega
    · have hdue := o.due_nonneg hbalanced
      omega
    · rwa [Order.due_of_open] at hrefunded
      rintro (h | h) <;> simp [h] at hstatus
    · rwa [Order.due_of_closed (Or.symm hstatus), sub_zero] at hrefunded
  · refine (run_rule (P := fun p => Orderly p.shared p.pending ∧
      ∃ o', p.shared.orders.get? id = some o' ∧ o'.status = o.status) ?_ ⟨horderly, o, ho, rfl⟩ hmore).2
    rintro p l hl ⟨h, o₁, ho₁, hstatus⟩
    obtain ⟨o₂, ho₂, hstatus'⟩ := exec_terminal env h hl ho₁ (hstatus ▸ hterminal)
    exact ⟨h.exec hl, o₂, ho₂, hstatus'.trans hstatus⟩
  · obtain hsame | ⟨_, i, e, R, hi, hdoes, hshared, -⟩ := exec_does env horderly j a
    · rw [hsame]
    · obtain hsame | ⟨id, hid, -⟩ := hdoes.shared
      · rw [hshared, hsame]
      · cases hparty.symm.trans (hi.trans hid)

/-- A purchase for at most 5 dollars that costs 3, at a quota of 1 for a dollar, and its code. -/
def boughtSteps : List (Label Db Unit Instr Answer) :=
  buySteps ++ [.step 0 (.activation ⟨"a", "+1", 3, by norm_num, 840, none⟩), .step 0 .ok,
    .start ⟨(), [.refresh 1 1]⟩, .step 1 .ok, .step 1 .ok, .step 1 (.status "1234"), .step 1 .ok]

theorem orders_conserved_bought : let p := run (exec (sem exampleEnv)) exampleOpened boughtSteps
    (p.shared.orders.get? 1).map (fun o => (o.status, o.reservedQuota, o.refundedQuota)) =
        some (.completed, 5, 2) ∧
      decreaseBy (exec (sem exampleEnv)) party 1 (fun p => walletOf p.shared.users 1) exampleOpened
        boughtSteps = 3 := by
  intro p
  have hadm : Along (exec (sem exampleEnv)) Admissible exampleOpened boughtSteps := by
    simp [boughtSteps, buySteps, Along, Admissible, Instr.isEntry]
  obtain ⟨o, ho, huser, hreserved, hrefunded⟩ : ∃ o ∈ p.shared.orders.get? 1,
      o.userId = 1 ∧ o.reservedQuota = 5 ∧ o.refundedQuota = 2 := by
    decide +kernel
  have hdecrease := ((orders_conserved exampleEnv _ _ _ boughtSteps hadm).1 1 o ho).1 1
  rw [huser, hreserved, hrefunded] at hdecrease
  exact ⟨by decide +kernel, hdecrease⟩

end LmmApi.HeroSms.Sms
