import LmmApi.HeroSms.Email.Write

/-!
# The money of orders of e-mail addresses

In every run of the processes, with any answers of the provider and crashes anywhere, an order has
taken from the wallet of its user what it costs and did not give back, and the ledger says so. The
activations of an order share its price, and what was given back is the price, if the order failed
as a whole, or the shares of its refunded activations.

A refund of the whole order and the refunds of its activations have different keys in the ledger;
that they do not add up is the condition of the refund that the price is not exceeded. `Rows` is
what the rows say about each other, and `Accounts` relates them to what the steps for each order
took from the wallets.
-/

namespace LmmApi.HeroSms.Email

open Threads Attribution Relation Option Table UniqueTable List

/-! ## Rows -/

/-- The refund of the whole order is in the ledger. -/
def Db.FailedWhole (db : Db) (id : ℕ) : Prop :=
  ∃ j row, db.ledger.get? j = some row ∧ row.key = .orderFailure id

/-- What the rows say about each other. -/
structure Rows (db : Db) : Prop where
  charge_nonneg : ∀ aid a, db.activations.get? aid = some a → 0 ≤ a.chargeQuota
  tidy : ∀ aid a, db.activations.get? aid = some a →
    a.refundQuota = 0 ∨ a.refundQuota = a.chargeQuota
  ordered : ∀ aid a, db.activations.get? aid = some a → ∃ o, db.orders.get? a.orderId = some o
  refunds : ∀ j row aid reason, db.ledger.get? j = some row → row.key = .refund aid reason →
    ∃ a, db.activations.get? aid = some a ∧ a.status = .refunded
  failures : ∀ id, db.FailedWhole id → ∃ o, db.orders.get? id = some o

variable {db db' : Db} {keep : ℕ → Prop} {whole : Prop} {id : ℕ}

variable {taken : ℕ → ℕ → ℤ} {a : Activation} {f : Activation → Activation} {aid : ℕ} {row : Ledger}
  {o : Order}

/-- The new rows of a refund. -/
theorem Paid.rows (h : Paid db db' row) {j : ℕ} {l : Ledger}
    (hl : db'.ledger.get? j = some l) : l = row ∨ db.ledger.get? j = some l := by
  cases h with
  | nothing _ _ _ hled | repeated _ _ _ hled => exact .inr (hled ▸ hl)
  | paid _ _ _ _ _ _ _ _ hled => exact get?_cases_of_insert hled hl

theorem Activation.Same.tidy {a a' : Activation} (h : a.Same a')
    (htidy : a.refundQuota = 0 ∨ a.refundQuota = a.chargeQuota) :
    a'.refundQuota = 0 ∨ a'.refundQuota = a'.chargeQuota := by
  rw [h.chargeQuota]
  rcases h.refundQuota with hs | hquo
  · rwa [hs]
  · exact hquo

/-- A row of the activations after a write: one of a new order, or one that was there before. -/
inductive Origin (keep : ℕ → Prop) (id : ℕ) (db db' : Db) (aid : ℕ) (a' : Activation) : Prop
  | same (h : db.activations.get? aid = some a')
  | moved (a : Activation) (h : db.activations.get? aid = some a) (horder : a.orderId = id)
      (hmoves : a.Moves (keep aid) a')
  | refunded (a : Activation) (h : db.activations.get? aid = some a) (horder : a.orderId = id)
      (hsame : a.Same a') (hopen : ¬ a.status.Closed) (hkeep : keep aid → a.status ≠ .completed)
      (hstatus : a'.status = .refunded)
  | new (hnone : db.activations.get? aid = none) (horder : a'.orderId = id)
      (ho : ∃ o, db'.orders.get? id = some o) (hcharge : 0 ≤ a'.chargeQuota)
      (hquota : a'.refundQuota = 0)

/-- The amounts of a row that was there before are the same. -/
theorem Origin.same_or_new {a' : Activation} (h : Origin keep id db db' aid a') :
    (∃ a, db.activations.get? aid = some a ∧ a.Same a') ∨ a'.orderId = id ∧
      (∃ o, db'.orders.get? id = some o) ∧ 0 ≤ a'.chargeQuota ∧ a'.refundQuota = 0 := by
  cases h with
  | same h => exact .inl ⟨a', h, rfl, rfl, .inl rfl⟩
  | moved a h _ hmv => exact .inl ⟨a, h, hmv.same⟩
  | refunded a h _ hs => exact .inl ⟨a, h, hs⟩
  | new _ hord ho hch hquo => exact .inr ⟨hord, ho, hch, hquo⟩

section

variable (h : Write keep whole id db db')
include h

theorem Write.origin {a' : Activation}
    (ha' : db'.activations.get? aid = some a') : Origin keep id db db' aid a' := by
  cases h with
  | order _ _ _ has | whole _ _ _ has => exact .same (has ▸ ha')
  | activations _ _ has hmv =>
    rw [UniqueTable.get?, has, get?_modifyWhere, map_eq_some_iff] at ha'
    obtain ⟨a, ha, rfl⟩ := ha'
    split
    case isTrue hp =>
      obtain ⟨hord, hmv⟩ := hmv aid a ha hp
      exact .moved a ha hord hmv
    case isFalse => exact .same ha
  | refund _ a _ _ _ ha hord _ has hs hop hkp hst =>
    rw [UniqueTable.get?, has] at ha'
    obtain ⟨rfl, rfl⟩ | ⟨-, hold⟩ := get?_modify_cases ha ha'
    · exact .refunded a ha hord hs hop hkp hst
    · exact .same hold
  | reserve o _ hid hos has hslo =>
    obtain hold | ⟨hn, hm⟩ := get?_insertAll?_cases has ha'
    · exact .same hold
    · obtain ⟨hord, hch, hquo, -⟩ := hslo a' hm
      refine .new hn hord ⟨o, ?_⟩ hch hquo
      rw [UniqueTable.get?, hos, hid]
      exact get?_insert_self _ _

/-- A refunded activation stays refunded. -/
theorem Write.refunded (ha : db.activations.get? aid = some a) (hst : a.status = .refunded) :
    ∃ a', db'.activations.get? aid = some a' ∧ a'.status = .refunded := by
  obtain ⟨a', ha', -⟩ := h.grows.activations aid a ha
  refine ⟨a', ha', ?_⟩
  cases h.origin ha' with
  | same hold => rwa [← mem_unique ha hold]
  | moved _ hb _ hmv =>
    obtain rfl := mem_unique ha hb
    exact (hmv.closed (.inr hst)).trans hst
  | refunded _ _ _ _ _ _ hst' => exact hst'
  | new hn => cases hn.symm.trans ha

/-- The ledger rows after a write. -/
inductive LedgerOrigin (keep : ℕ → Prop) (whole : Prop) (id : ℕ) (db db' : Db) (j : ℕ) (l : Ledger) :
    Prop
  | same (h : db.ledger.get? j = some l)
  | refund (aid : ℕ) (reason : Option CancelReason) (hkey : l.key = .refund aid reason)
      (a : Activation) (ha : db.activations.get? aid = some a) (horder : a.orderId = id)
      (hopen : ¬ a.status.Closed) (hkeep : keep aid → a.status ≠ .completed)
      (hrefunded : ∃ a', db'.activations.get? aid = some a' ∧ a'.status = .refunded)
  | failure (hwhole : whole) (hkey : l.key = .orderFailure id) (o : Order)
      (ho : db.orders.get? id = some o)
  | reserve (hkey : l.key = .reserve id)

theorem Write.ledgerOrigin {j : ℕ} {l : Ledger}
    (hl : db'.ledger.get? j = some l) : LedgerOrigin keep whole id db db' j l := by
  cases h with
  | order _ _ _ _ _ hled => exact .same (hled ▸ hl)
  | activations _ _ _ _ helse => exact .same (helse.ledger ▸ hl)
  | refund aid a f reason _ ha hord _ has _ hop hkp hst hp =>
    obtain rfl | hold := hp.rows hl
    · refine .refund aid reason rfl a ha hord hop hkp ⟨f a, ?_, hst⟩
      rw [UniqueTable.get?, has, get?_modify_self]
      exact congrArg (Option.map f) ha
    · exact .same hold
  | whole hwh o ho _ hp =>
    obtain rfl | hold := hp.rows hl
    · exact .failure hwh rfl o ho
    · exact .same hold
  | reserve _ _ _ _ _ _ _ _ hled =>
    obtain rfl | hl := get?_cases_of_insert hled hl
    · exact .reserve rfl
    · exact .same hl

end

/-- **A write keeps the rows in order.** -/
theorem Rows.of_write (h : Rows db) (hw : Write keep whole id db db') : Rows db' where
  charge_nonneg aid a ha := by
    obtain ⟨b, hb, hs⟩ | ⟨-, -, hch, -⟩ := (hw.origin ha).same_or_new
    · exact hs.chargeQuota ▸ h.charge_nonneg aid b hb
    · exact hch
  tidy aid a ha := by
    obtain ⟨b, hb, hs⟩ | ⟨-, -, -, hquo⟩ := (hw.origin ha).same_or_new
    · exact hs.tidy (h.tidy aid b hb)
    · exact .inl hquo
  ordered aid a ha := by
    obtain ⟨b, hb, hs⟩ | ⟨hord, ho, -⟩ := (hw.origin ha).same_or_new
    · obtain ⟨o, ho⟩ := h.ordered aid b hb
      obtain ⟨o', ho', -⟩ := hw.grows.orders _ o ho
      exact ⟨o', hs.orderId ▸ ho'⟩
    · exact hord ▸ ho
  refunds j row aid reason hr hk := by
    cases hw.ledgerOrigin hr with
    | same hold =>
      obtain ⟨a, ha, hst⟩ := h.refunds j row aid reason hold hk
      exact hw.refunded ha hst
    | refund _ _ hk' _ _ _ _ _ href =>
      obtain ⟨rfl, -⟩ := LedgerKey.refund.inj (hk.symm.trans hk')
      exact href
    | failure _ hk' | reserve hk' => cases hk.symm.trans hk'
  failures k := by
    rintro ⟨j, row, hr, hk⟩
    have hgr {o : Order} (ho : db.orders.get? k = some o) : ∃ o', db'.orders.get? k = some o' := by
      obtain ⟨o', ho', -⟩ := hw.grows.orders k o ho
      exact ⟨o', ho'⟩
    cases hw.ledgerOrigin hr with
    | same hold =>
      obtain ⟨o, ho⟩ := h.failures k ⟨j, row, hold, hk⟩
      exact hgr ho
    | refund _ _ hk' | reserve hk' => cases hk.symm.trans hk'
    | failure _ hk' _ ho =>
      obtain rfl := LedgerKey.orderFailure.inj (hk.symm.trans hk')
      exact hgr ho

/-! ## Accounts -/

/-- The amounts of an order. -/
structure Account where
  userId : ℕ
  charge : ℤ
  refunded : ℤ

def Order.account (o : Order) : Account := ⟨o.userId, o.chargeQuota, o.refundedQuota⟩

def Db.account (db : Db) (id : ℕ) : Option Account := (db.orders.get? id).map Order.account

theorem account_of_get? (ho : db.orders.get? id = some o) : db.account id = some o.account := by
  rw [Db.account, ho, map_some]

/-- What an order has taken and not given back. -/
def Db.outstanding (db : Db) (id : ℕ) : ℤ := (db.account id).elim 0 fun x => x.charge - x.refunded

/-- The sum of the ledger rows of an order. -/
def Db.ledgerSum (db : Db) (id : ℕ) : ℤ :=
  db.ledger.table.sum fun _ l => if l.orderId = id then l.amountQuota else 0

/-- The shares of the activations of an order. -/
def Db.shares (db : Db) (id : ℕ) : ℤ :=
  db.activations.table.sum fun _ a => if a.orderId = id then a.chargeQuota else 0

/-- The shares of its refunded activations. -/
def Db.refundedShares (db : Db) (id : ℕ) : ℤ :=
  db.activations.table.sum fun _ a =>
    if a.orderId = id ∧ a.status = .refunded then a.chargeQuota else 0

/-- The accounts of all orders, where `taken id user` is what the order `id` took from the wallet of
the user. -/
structure Accounts (db : Db) (taken : ℕ → ℕ → ℤ) : Prop where
  nonneg : ∀ id x, db.account id = some x → 0 ≤ x.refunded
  le : ∀ id x, db.account id = some x → x.refunded ≤ x.charge
  shares : ∀ id x, db.account id = some x → db.shares id = x.charge
  whole : ∀ id x, db.account id = some x → db.FailedWhole id → x.refunded = x.charge
  parts : ∀ id x, db.account id = some x → ¬ db.FailedWhole id → x.refunded = db.refundedShares id
  taken : ∀ id user, taken id user =
    (db.account id).elim 0 fun x => if user = x.userId then x.charge - x.refunded else 0
  ledger : ∀ id, db.ledgerSum id = -db.outstanding id

/-- What the orders have taken after a change that belongs to `id`. -/
abbrev takenAfter (taken : ℕ → ℕ → ℤ) (id : ℕ) (db db' : Db) (k user : ℕ) : ℤ :=
  taken k user + if k = id then walletOf db.users user - walletOf db'.users user else 0

/-- What the accounts depend on is the same. -/
structure SameAccounts (db db' : Db) : Prop where
  account : ∀ k, db'.account k = db.account k
  shares : ∀ k, db'.shares k = db.shares k
  refundedShares : ∀ k, db'.refundedShares k = db.refundedShares k
  ledgerSum : ∀ k, db'.ledgerSum k = db.ledgerSum k
  failedWhole : ∀ k, db'.FailedWhole k ↔ db.FailedWhole k

theorem Accounts.congr (h : Accounts db taken) (hs : SameAccounts db db')
    {f : ℕ → ℕ → ℤ} (hf : ∀ k user, f k user = 0) :
    Accounts db' fun k user => taken k user + f k user where
  nonneg k x hx := h.nonneg k x (hs.account k ▸ hx)
  le k x hx := h.le k x (hs.account k ▸ hx)
  shares k x hx := (hs.shares k).trans (h.shares k x (hs.account k ▸ hx))
  whole k x hx hwh := h.whole k x (hs.account k ▸ hx) ((hs.failedWhole k).1 hwh)
  parts k x hx hwh := by
    rw [hs.refundedShares]
    exact h.parts k x (hs.account k ▸ hx) fun hold => hwh ((hs.failedWhole k).2 hold)
  taken k user := by rw [hf, add_zero, hs.account]; exact h.taken k user
  ledger k := by rw [hs.ledgerSum, Db.outstanding, hs.account]; exact h.ledger k

/-- The account of one order changes. -/
theorem Accounts.update (h : Accounts db taken) {y : Account}
    (hacc : ∀ k, db'.account k = if k = id then some y else db.account k)
    (hnn : 0 ≤ y.refunded) (hle : y.refunded ≤ y.charge) (hsha : db'.shares id = y.charge)
    (hwh : db'.FailedWhole id → y.refunded = y.charge)
    (hpar : ¬ db'.FailedWhole id → y.refunded = db'.refundedShares id)
    (htak : ∀ user, takenAfter taken id db db' id user =
      if user = y.userId then y.charge - y.refunded else 0)
    (hled : ∀ k, db'.ledgerSum k = if k = id then y.refunded - y.charge else db.ledgerSum k)
    (hoth : ∀ k, k ≠ id → db'.shares k = db.shares k ∧ db'.refundedShares k = db.refundedShares k ∧
      (db'.FailedWhole k ↔ db.FailedWhole k)) : Accounts db' (takenAfter taken id db db') := by
  -- an account after the change
  have hcas {k : ℕ} {z : Account} (hz : db'.account k = some z) :
      k = id ∧ z = y ∨ k ≠ id ∧ db.account k = some z := by
    rw [hacc] at hz
    split at hz
    case isTrue hk => exact .inl ⟨hk, (some.inj hz).symm⟩
    case isFalse hk => exact .inr ⟨hk, hz⟩
  refine ⟨fun k z hz => ?_, fun k z hz => ?_, fun k z hz => ?_, fun k z hz hw => ?_,
    fun k z hz hw => ?_, fun k user => ?_, fun k => ?_⟩
  · obtain ⟨rfl, rfl⟩ | ⟨-, hold⟩ := hcas hz
    · exact hnn
    · exact h.nonneg k z hold
  · obtain ⟨rfl, rfl⟩ | ⟨-, hold⟩ := hcas hz
    · exact hle
    · exact h.le k z hold
  · obtain ⟨rfl, rfl⟩ | ⟨hk, hold⟩ := hcas hz
    · exact hsha
    · exact (hoth k hk).1.trans (h.shares k z hold)
  · obtain ⟨rfl, rfl⟩ | ⟨hk, hold⟩ := hcas hz
    · exact hwh hw
    · exact h.whole k z hold ((hoth k hk).2.2.1 hw)
  · obtain ⟨rfl, rfl⟩ | ⟨hk, hold⟩ := hcas hz
    · exact hpar hw
    · rw [(hoth k hk).2.1]
      exact h.parts k z hold fun hw' => hw ((hoth k hk).2.2.2 hw')
  · by_cases hk : k = id
    · subst hk
      rw [htak, hacc, if_pos rfl, elim_some]
    · rw [takenAfter, if_neg hk, add_zero, hacc, if_neg hk, h.taken]
  · rw [hled, Db.outstanding, hacc]
    split
    case isTrue => exact (neg_sub _ _).symm
    case isFalse => exact h.ledger k

/-! ### Sums over the activations -/

section

variable {f : Order → Order} (hos : db'.orders.table = db.orders.table.modify id f)
include hos

theorem account_modify (ho : db.orders.get? id = some o) (k : ℕ) :
    db'.account k = if k = id then some (f o).account else db.account k := by
  rw [Db.account, UniqueTable.get?, hos, get?_modify_of_get? f ho]
  split <;> rfl

theorem account_congr (hf : ∀ o, db.orders.get? id = some o → (f o).account = o.account) (k : ℕ) :
    db'.account k = db.account k := by
  rw [Db.account, UniqueTable.get?, hos, Table.get?_modify, Option.map_map]
  cases ho : db.orders.table.get? k with
  | none => rw [Db.account, UniqueTable.get?, ho]; rfl
  | some o =>
    rw [Db.account, UniqueTable.get?, ho, map_some, map_some, Function.comp_apply]
    split
    case isTrue hk => rw [hf o (hk ▸ ho)]
    case isFalse => rfl

end

/-- A sum over the activations after writes that keep its terms. -/
theorem sum_modifyWhere_eq {p : ℕ → Activation → Prop} [∀ aid a, Decidable (p aid a)]
    (has : db'.activations.table = db.activations.table.modifyWhere p f) {F : Activation → ℤ}
    (hF : ∀ aid a, db.activations.get? aid = some a → p aid a → F (f a) = F a) :
    (db'.activations.table.sum fun _ a => F a) = db.activations.table.sum fun _ a => F a := by
  rw [has, sum_modifyWhere]
  refine sum_congr fun aid a ha => ?_
  split
  case isTrue hp => exact hF aid a ha hp
  case isFalse => rfl

theorem failedWhole_insert (hled : db'.ledger.table = db.ledger.table.insert row) (k : ℕ) :
    db'.FailedWhole k ↔ db.FailedWhole k ∨ row.key = .orderFailure k := by
  constructor
  · rintro ⟨j, l, hl, hk⟩
    obtain rfl | hl := get?_cases_of_insert hled hl
    · exact .inr hk
    · exact .inl ⟨j, l, hl, hk⟩
  · simp only [Db.FailedWhole, UniqueTable.get?, hled]
    rintro (⟨j, l, hl, hk⟩ | hk)
    · exact ⟨j, l, get?_insert_of_get? hl, hk⟩
    · exact ⟨_, row, get?_insert_self _ _, hk⟩

theorem Paid.failedWhole_iff (h : Paid db db' row) {k : ℕ} (hk : row.key ≠ .orderFailure k) :
    db'.FailedWhole k ↔ db.FailedWhole k := by
  cases h with
  | nothing _ _ _ hled | repeated _ _ _ hled => rw [Db.FailedWhole, hled, Db.FailedWhole]
  | paid _ _ _ _ _ _ _ _ hled => rw [failedWhole_insert hled, or_iff_left hk]

/-! ### Writes -/

theorem SameAccounts.of_unchanged (hos : ∀ k, db'.account k = db.account k)
    (has : db'.activations = db.activations) (hled : db'.ledger = db.ledger) :
    SameAccounts db db' where
  account := hos
  shares k := by rw [Db.shares, Db.shares, has]
  refundedShares k := by rw [Db.refundedShares, Db.refundedShares, has]
  ledgerSum k := by rw [Db.ledgerSum, Db.ledgerSum, hled]
  failedWhole k := by rw [Db.FailedWhole, Db.FailedWhole, hled]

theorem SameAccounts.of_tables (hos : db'.orders = db.orders)
    (has : db'.activations = db.activations) (hled : db'.ledger = db.ledger) :
    SameAccounts db db' :=
  .of_unchanged (fun k => by rw [Db.account, hos, Db.account]) has hled

/-- A write that does not move money. -/
theorem Accounts.still (h : Accounts db taken) (hs : SameAccounts db db')
    (hus : db'.users = db.users) : Accounts db' (takenAfter taken id db db') :=
  h.congr hs fun k user => by rw [hus, sub_self, ite_self]

theorem shares_modify (ha : db.activations.get? aid = some a) (hs : a.Same (f a))
    (has : db'.activations.table = db.activations.table.modify aid f) (k : ℕ) :
    db'.shares k = db.shares k := by
  refine sum_modifyWhere_eq (F := fun a => if a.orderId = k then a.chargeQuota else 0) has ?_
  rintro j b hb rfl
  obtain rfl := mem_unique ha hb
  rw [hs.orderId, hs.chargeQuota]

/-- A refund adds the share of its activation. -/
theorem refundedShares_modify
    (ha : db.activations.get? aid = some a) (hs : a.Same (f a)) (hop : ¬ a.status.Closed)
    (hst : (f a).status = .refunded)
    (has : db'.activations.table = db.activations.table.modify aid f) (k : ℕ) :
    db'.refundedShares k = db.refundedShares k + if a.orderId = k then a.chargeQuota else 0 := by
  have hbef : a.status ≠ .refunded := fun h => hop (.inr h)
  rw [Db.refundedShares, has, sum_modify ha, Db.refundedShares, hs.orderId, hs.chargeQuota]
  simp [hbef, hst]

theorem Paid.not_repeated {reason : Option CancelReason}
    (hrs : Rows db) (ha : db.activations.get? aid = some a) (hop : ¬ a.status.Closed)
    (hk : row.key = .refund aid reason) : ¬ ∃ j r, db.ledger.get? j = some r ∧ r.key = row.key := by
  rintro ⟨j, r, hr, hrkey⟩
  obtain ⟨b, hb, hst⟩ := hrs.refunds j r aid reason hr (hrkey.trans hk)
  obtain rfl := mem_unique ha hb
  exact hop (.inr hst)

section

variable (h : Accounts db taken) (hrs : Rows db)
include h hrs

omit hrs in
/-- A payment to the user of an order. -/
theorem Accounts.paid (ho : db.orders.get? row.orderId = some o) (hpos : 0 < row.amountQuota)
    (hle : o.refundedQuota + row.amountQuota ≤ o.chargeQuota)
    (hos : db'.orders.table = db.orders.table.modify row.orderId
      fun o => { o with refundedQuota := o.refundedQuota + row.amountQuota })
    {u : User} (hu : db.users.get? o.userId = some u)
    (hus : db'.users = db.users.modify o.userId (User.addQuota row.amountQuota))
    (hled : db'.ledger.table = db.ledger.table.insert row)
    (hsha : ∀ k, db'.shares k = db.shares k)
    (hwh : db'.FailedWhole row.orderId → o.refundedQuota + row.amountQuota = o.chargeQuota)
    (hpar : ¬ db'.FailedWhole row.orderId →
      o.refundedQuota + row.amountQuota = db'.refundedShares row.orderId)
    (hoth : ∀ k, k ≠ row.orderId → db'.refundedShares k = db.refundedShares k ∧
      (db'.FailedWhole k ↔ db.FailedWhole k)) :
    Accounts db' (takenAfter taken row.orderId db db') := by
  have hx := account_of_get? ho
  have hnn : 0 ≤ o.refundedQuota := h.nonneg _ _ hx
  refine h.update (account_modify hos ho) (add_nonneg hnn hpos.le) hle
    ((hsha _).trans (h.shares _ o.account hx)) hwh hpar (fun user => ?_) (fun k => ?_)
    fun k hk => ⟨hsha k, hoth k hk⟩
  · rw [takenAfter, if_pos rfl, h.taken, hx, elim_some, hus, walletOf_addQuota hu]
    by_cases hown : user = o.userId
    · simp only [Order.account, hown, if_true]
      ring
    · simp [Order.account, hown]
  · rw [Db.ledgerSum, hled, sum_insert, ← Db.ledgerSum]
    by_cases hk : k = row.orderId
    · subst hk
      rw [if_pos rfl, if_pos rfl, h.ledger, Db.outstanding, hx, elim_some]
      simp only [Order.account]
      ring
    · rw [if_neg hk, if_neg (Ne.symm hk), add_zero]

/-- The refund of an activation. -/
theorem Accounts.refund {reason : Option CancelReason}
    (ha : db.activations.get? aid = some a) (hord : a.orderId = id)
    (ho : db.orders.get? id = some o)
    (has : db'.activations.table = db.activations.table.modify aid f) (hs : a.Same (f a))
    (hop : ¬ a.status.Closed) (hst : (f a).status = .refunded) (hp : Paid db db'
      { userId := o.userId, orderId := id, activationId := some aid, amountQuota := a.chargeQuota,
        key := .refund aid reason }) :
    Accounts db' (takenAfter taken id db db') := by
  have hsha := shares_modify ha hs has
  have href := refundedShares_modify ha hs hop hst has
  have hfl (k : ℕ) : db'.FailedWhole k ↔ db.FailedWhole k := hp.failedWhole_iff nofun
  cases hp with
  | nothing hle hos hus hled =>
    have hz : a.chargeQuota = 0 := le_antisymm hle (hrs.charge_nonneg aid a ha)
    refine h.still ⟨fun k => ?_, hsha, fun k => ?_, fun k => ?_, hfl⟩ hus
    · rw [Db.account, hos, Db.account]
    · rw [href, hz, ite_self, add_zero]
    · rw [Db.ledgerSum, hled, Db.ledgerSum]
  | repeated hbef => exact absurd hbef (Paid.not_repeated hrs ha hop rfl)
  | paid hpos o' ho' hle hos u hu hus hled =>
    obtain rfl := mem_unique ho ho'
    have hx := account_of_get? ho
    refine h.paid ho hpos hle hos hu hus hled hsha (fun hwh => ?_) (fun hpar => ?_)
      fun k hk => ⟨?_, hfl k⟩
    · have hall : o.refundedQuota = o.chargeQuota := h.whole id _ hx ((hfl id).1 hwh)
      dsimp only at hpos hle
      omega
    · rw [href, hord, if_pos rfl, ← h.parts id _ hx fun hold => hpar ((hfl id).2 hold)]
      rfl
    · rw [href, hord, if_neg (Ne.symm hk), add_zero]

omit hrs in
/-- The refund of a whole order. -/
theorem Accounts.failure
    (ho : db.orders.get? id = some o) (has : db'.activations = db.activations) (hp : Paid db db'
      { userId := o.userId, orderId := id, amountQuota := o.chargeQuota, key := .orderFailure id }) :
    Accounts db' (takenAfter taken id db db') := by
  have hfl (k : ℕ) (hk : k ≠ id) : db'.FailedWhole k ↔ db.FailedWhole k :=
    hp.failedWhole_iff fun heq => hk (LedgerKey.orderFailure.inj heq).symm
  cases hp with
  | nothing _ hos hus hled | repeated _ hos hus hled => exact h.still (.of_tables hos has hled) hus
  | paid hpos o' ho' hle hos u hu hus hled =>
    obtain rfl := mem_unique ho ho'
    refine h.paid ho hpos hle hos hu hus hled (fun k => ?_) (fun _ => ?_)
      (absurd ((failedWhole_insert hled id).2 (.inr rfl))) fun k hk => ⟨?_, hfl k hk⟩
    · rw [Db.shares, has, Db.shares]
    · have hnn : 0 ≤ o.refundedQuota := h.nonneg id _ (account_of_get? ho)
      dsimp only at hle ⊢
      omega
    · rw [Db.refundedShares, has, Db.refundedShares]

/-- A new order. -/
theorem Accounts.reserve {slots : List Activation} (hid : id = db.orders.table.next)
    (hos : db'.orders.table = db.orders.table.insert o)
    (has : db.activations.insertAll? slots = some db'.activations)
    (hslo : ∀ a ∈ slots, a.orderId = id ∧ 0 ≤ a.chargeQuota ∧ a.refundQuota = 0 ∧
      a.status = .pendingProvider)
    (hsum : (slots.map Activation.chargeQuota).sum = o.chargeQuota) (href : o.refundedQuota = 0)
    (hled : db'.ledger.table = db.ledger.table.insert
      { userId := o.userId, orderId := id, amountQuota := -o.chargeQuota, key := .reserve id })
    {u : User} (hu : db.users.get? o.userId = some u)
    (hus : db'.users = db.users.modify o.userId (User.addQuota (-o.chargeQuota))) :
    Accounts db' (takenAfter taken id db db') := by
  have hno : db.account id = none := by
    rw [Db.account, hid]
    exact congrArg _ db.orders.table.get?_next
  have hacc (k : ℕ) : db'.account k = if k = id then some o.account else db.account k := by
    rw [Db.account, UniqueTable.get?, hos, get?_insert, hid]
    split <;> rfl
  -- nothing belongs to the order before it is there
  have hfr (aid : ℕ) (a : Activation) (ha : db.activations.get? aid = some a) : a.orderId ≠ id := by
    rintro rfl
    obtain ⟨o', ho'⟩ := hrs.ordered aid a ha
    rw [hid] at ho'
    cases ho'.symm.trans db.orders.table.get?_next
  have hfl (k : ℕ) : db'.FailedWhole k ↔ db.FailedWhole k := by simp [failedWhole_insert hled]
  have hsha (k : ℕ) : db'.shares k = db.shares k + if k = id then o.chargeQuota else 0 := by
    rw [Db.shares, sum_insertAll? has
      fun a => if a.orderId = k then a.chargeQuota else 0, Db.shares]
    congr 1
    split
    case isTrue hk =>
      subst hk
      rw [← hsum]
      exact congrArg List.sum (map_congr_left fun a ha => if_pos (hslo a ha).1)
    case isFalse hk =>
      refine sum_eq_zero fun n hn => ?_
      obtain ⟨a, ha, rfl⟩ := mem_map.1 hn
      exact if_neg fun heq => hk (heq.symm.trans (hslo a ha).1)
  have hsha₀ : db.shares id = 0 := sum_eq_zero fun aid a ha => if_neg (hfr aid a ha)
  have hrefu (k : ℕ) : db'.refundedShares k = db.refundedShares k := by
    rw [Db.refundedShares, sum_insertAll? has
      fun a => if a.orderId = k ∧ a.status = .refunded then a.chargeQuota else 0, Db.refundedShares,
      add_eq_left]
    refine sum_eq_zero fun n hn => ?_
    obtain ⟨a, ha, rfl⟩ := mem_map.1 hn
    have hpen : a.status ≠ .refunded := by rw [(hslo a ha).2.2.2]; decide
    exact if_neg fun hst => hpen hst.2
  have href₀ : db.refundedShares id = 0 :=
    sum_eq_zero fun aid a ha => if_neg fun hst => hfr aid a ha hst.1
  have hch : 0 ≤ o.chargeQuota := by
    rw [← hsum]
    refine sum_nonneg fun n hn => ?_
    obtain ⟨a, ha, rfl⟩ := mem_map.1 hn
    exact (hslo a ha).2.1
  refine h.update hacc href.ge (href.le.trans hch) ?_ (fun hw => ?_) (fun _ => ?_)
    (fun user => ?_) (fun k => ?_) fun k hk => ⟨?_, hrefu k, hfl k⟩
  · rw [hsha, hsha₀, if_pos rfl, zero_add]
    rfl
  · obtain ⟨o', ho'⟩ := hrs.failures id ((hfl id).1 hw)
    rw [hid] at ho'
    cases ho'.symm.trans db.orders.table.get?_next
  · rw [hrefu, href₀]
    exact href
  · rw [takenAfter, if_pos rfl, h.taken, hno, elim_none, hus, walletOf_addQuota hu]
    simp only [Order.account, href]
    split <;> ring
  · rw [Db.ledgerSum, hled, sum_insert, ← Db.ledgerSum]
    by_cases hk : k = id
    · subst hk
      rw [h.ledger, Db.outstanding, hno]
      simp [Order.account, href]
    · simp [hk, Ne.symm hk]
  · rw [hsha, if_neg hk, add_zero]

/-- **A write keeps the accounts.** -/
theorem Accounts.of_write
    (hw : Write keep whole id db db') : Accounts db' (takenAfter taken id db db') := by
  cases hw with
  | order _ hos hmar has hus hled =>
    refine h.still (.of_unchanged (account_congr hos fun o ho => ?_) has hled) hus
    have hmk := hmar o ho
    simp only [Order.account, hmk.userId, hmk.chargeQuota, hmk.refundedQuota]
  | activations _ _ has hmv helse =>
    refine h.still ⟨fun k => ?_, fun k => ?_, fun k => ?_, fun k => ?_, fun k => ?_⟩ helse.users
    · rw [Db.account, helse.orders, Db.account]
    · refine sum_modifyWhere_eq (F := fun a => if a.orderId = k then a.chargeQuota else 0) has
        fun aid a ha hp => ?_
      have hs := (hmv aid a ha hp).2.same
      rw [hs.orderId, hs.chargeQuota]
    · refine sum_modifyWhere_eq
        (F := fun a => if a.orderId = k ∧ a.status = .refunded then a.chargeQuota else 0) has
        fun aid a ha hp => ?_
      have hmv := (hmv aid a ha hp).2
      rw [hmv.same.orderId, hmv.same.chargeQuota]
      refine if_congr (and_congr_right fun _ => ?_) rfl rfl
      exact ⟨hmv.refunded, fun hst => (hmv.closed (.inr hst)).trans hst⟩
    · rw [Db.ledgerSum, helse.ledger, Db.ledgerSum]
    · rw [Db.FailedWhole, helse.ledger, Db.FailedWhole]
  | refund _ _ _ _ _ ha hord ho has hs hop _ hst hpa =>
    exact h.refund hrs ha hord ho has hs hop hst hpa
  | whole _ _ ho has hpa => exact h.failure ho has hpa
  | reserve _ _ hid hos has hslo hsum href hled _ hu hus =>
    exact h.reserve hrs hid hos has hslo hsum href hled hu hus

omit h hrs in
theorem Rows.of_writes (h : Rows db) (hws : Writes keep whole id db db') : Rows db' := by
  induction hws with
  | refl => exact h
  | tail _ hw ih => exact ih.of_write hw

theorem Accounts.of_writes
    (hws : Writes keep whole id db db') : Accounts db' (takenAfter taken id db db') := by
  induction hws with
  | refl => exact h.still (.of_unchanged (fun _ => rfl) rfl rfl) rfl
  | tail hws hw ih =>
    have hn := ih.of_write (hrs.of_writes hws) hw
    convert hn using 1
    funext k user
    rw [takenAfter, takenAfter, takenAfter, add_assoc]
    split <;> ring

end

/-! ## Activations that are settled -/

/-- An activation that is not to be refunded any more. -/
def Status.Settled (s : Status) : Prop := s = .cancelled ∨ s = .refunded ∨ s = .completed
  deriving Decidable

/-- A ledger row gives back what an activation costs, alone or with its order. -/
def LedgerKey.Refunds (aid orderId : ℕ) (key : LedgerKey) : Prop :=
  (∃ reason, key = .refund aid reason) ∨ key = .orderFailure orderId

/-- The activation `aid` is as it was in `db`, in status and refunds. -/
structure Untouched (db db' : Db) (aid : ℕ) (a : Activation) : Prop where
  row : ∃ a', db'.activations.get? aid = some a' ∧ a'.orderId = a.orderId ∧ a'.status = a.status
  ledger : ∀ j l, db'.ledger.get? j = some l → l.key.Refunds aid a.orderId →
    db.ledger.get? j = some l

theorem Untouched.refl (ha : db.activations.get? aid = some a) : Untouched db db aid a :=
  ⟨⟨a, ha, rfl, rfl⟩, fun _ _ hl _ => hl⟩

/-- A write for the order leaves a settled activation alone, if the activation stays completed and
the order is not refunded as a whole. -/
theorem Write.untouched (h : Write keep whole id db db')
    (ha : db.activations.get? aid = some a) (hset : a.status.Settled)
    (hkp : a.status = .completed → keep aid) (hwh : whole → a.orderId ≠ id) :
    Untouched db db' aid a := by
  have hcl (hop : ¬ a.status.Closed) (hk : keep aid → a.status ≠ .completed) : False := by
    rcases hset with hs | hs | hs
    · exact hop (.inl hs)
    · exact hop (.inr hs)
    · exact hk (hkp hs) hs
  refine ⟨?_, fun j l hl href => ?_⟩
  · obtain ⟨a', ha', hord, -⟩ := h.grows.activations aid a ha
    refine ⟨a', ha', hord, ?_⟩
    cases h.origin ha' with
    | same hold => rw [mem_unique ha hold]
    | moved _ hb _ hmv =>
      obtain rfl := mem_unique ha hb
      rcases hset with hs | hs | hs
      · exact hmv.closed (.inl hs)
      · exact hmv.closed (.inr hs)
      · exact (hmv.completed (hkp hs) hs).trans hs.symm
    | refunded _ hb _ _ hop hk =>
      obtain rfl := mem_unique ha hb
      exact (hcl hop hk).elim
    | new hn => cases hn.symm.trans ha
  · cases h.ledgerOrigin hl with
    | same hold => exact hold
    | refund _ _ hkey _ hb _ hop hk =>
      obtain ⟨reason', hkey'⟩ | hkey' := href
      · obtain ⟨rfl, -⟩ := LedgerKey.refund.inj (hkey.symm.trans hkey')
        obtain rfl := mem_unique ha hb
        exact (hcl hop hk).elim
      · cases hkey.symm.trans hkey'
    | failure hw hkey =>
      obtain ⟨reason', hkey'⟩ | hkey' := href
      · cases hkey.symm.trans hkey'
      · exact absurd (LedgerKey.orderFailure.inj (hkey'.symm.trans hkey)) (hwh hw)
    | reserve hkey =>
      obtain ⟨_, hkey'⟩ | hkey' := href
      · cases hkey.symm.trans hkey'
      · cases hkey.symm.trans hkey'

theorem Untouched.trans {db'' : Db} {a a' : Activation} (h : Untouched db db' aid a)
    (h' : Untouched db' db'' aid a') (hord : a'.orderId = a.orderId)
    (hst : a'.status = a.status) : Untouched db db'' aid a := by
  obtain ⟨a₂, ha₂, hord₂, hst₂⟩ := h'.row
  refine ⟨⟨a₂, ha₂, hord₂.trans hord, hst₂.trans hst⟩, fun j l hl href => ?_⟩
  exact h.ledger j l (h'.ledger j l hl (hord ▸ href)) href

theorem Writes.untouched (h : Writes keep whole id db db')
    (ha : db.activations.get? aid = some a) (hset : a.status.Settled)
    (hkp : a.status = .completed → keep aid) (hwh : whole → a.orderId ≠ id) :
    Untouched db db' aid a := by
  induction h with
  | refl => exact .refl ha
  | tail _ hwri ih =>
    obtain ⟨a', ha', hord, hst⟩ := ih.row
    refine ih.trans (hwri.untouched ha' (hst ▸ hset) (fun hs => ?_) fun hw => ?_) hord hst
    · exact hkp (hst.symm.trans hs)
    · exact hord ▸ hwh hw

/-! ## Runs -/

variable (users : Table User) (settings : Settings) (now : ℤ)

/-- No orders yet, with any users, settings and time. -/
def opened : Pool Db Unit Instr where
  shared := ⟨users, .empty, .empty, .empty, settings, now⟩
  threads := []

/-- The order that a step is about. -/
def party : Label Db Unit Instr Answer → Pool Db Unit Instr → Option ℕ
  | .step j _, p => (p.head? j).bind fun i => i.order p.shared
  | _, _ => none

/-- The rows are in order, and the processes know what they have read. -/
structure Sound (p : Pool Db Unit Instr) : Prop where
  rows : Rows p.shared
  fits : ∀ x ∈ p.pending, x.2.Fits p.shared

theorem sound_opened : Sound (opened users settings now) where
  rows := ⟨(fun _ _ h => nomatch h), (fun _ _ h => nomatch h), (fun _ _ h => nomatch h),
    (fun _ _ _ _ h => nomatch h), (fun _ ⟨_, _, h, _⟩ => nomatch h)⟩
  fits x hx := absurd hx (Multiset.notMem_zero x)

theorem Rows.congr (h : Rows db) (hos : db'.orders = db.orders)
    (has : db'.activations = db.activations) (hled : db'.ledger = db.ledger) : Rows db' := by
  obtain ⟨hnn, htidy, hord, href, hfai⟩ := h
  refine ⟨?_, ?_, ?_, ?_, ?_⟩
  · rwa [has]
  · rwa [has]
  · rwa [has, hos]
  · rwa [has, hled]
  · simp only [Db.FailedWhole, hled, hos]
    exact hfai

theorem accounts_opened : Accounts (opened users settings now).shared fun _ _ => 0 where
  nonneg _ _ h := nomatch h
  le _ _ h := nomatch h
  shares _ _ h := nomatch h
  whole _ _ h := nomatch h
  parts _ _ h := nomatch h
  taken _ _ := rfl
  ledger _ := rfl

variable {env : Env} {p : Pool Db Unit Instr} {l : Label Db Unit Instr Answer}

/-- **What a step of a process does.** -/
theorem exec_does (env : Env) (h : Sound p) (j : ℕ) (a : Answer) :
    exec (sem env) (.step j a) p = p ∨
      ∃ tag i rest e R, p.threads[j]? = some ⟨tag, i :: rest⟩ ∧ Does p.shared i e ∧
        (exec (sem env) (.step j a) p).shared = e.shared ∧ p.pending = (tag, i) ::ₘ R ∧
        (exec (sem env) (.step j a) p).pending = e.pending tag + R := by
  obtain hs | ⟨tag, i, rest, e, hth, hsem, hsh, R, hbef, haft⟩ := exec_cases (sem env) j a p
  · exact .inl hs
  · have hft := h.fits (tag, i) (hbef ▸ Multiset.mem_cons_self _ _)
    exact .inr ⟨tag, i, rest, e, R, hth, sem_does env hsem hft h.rows.tidy, hsh, hbef, haft⟩

theorem Does.grows {i : Instr} {e : Effect Db Unit Instr} (h : Does db i e) : Grows db e.shared := by
  obtain hs | ⟨id, -, hws⟩ := h.shared
  · rw [hs]
    exact .refl db
  · exact hws.grows

theorem Sound.exec (h : Sound p) (hadm : Admissible l p) : Sound (exec (sem env) l p) := by
  cases l with
  | step j a =>
    obtain hs | ⟨_, i, _, e, R, -, hd, hsh, hbef, haft⟩ := exec_does env h j a
    · rwa [hs]
    · refine ⟨?_, ?_⟩
      · rw [hsh]
        obtain hs | ⟨id, -, hws⟩ := hd.shared
        · exact hs.symm ▸ h.rows
        · exact h.rows.of_writes hws
      · rw [hsh, haft]
        exact Effect.forall_pending hd.spawned hd.next.fits
          (hbef ▸ fun x hx => (h.fits x hx).mono hd.grows)
  | start =>
    obtain ⟨i, rfl, hi⟩ := hadm
    refine ⟨h.rows, ?_⟩
    rw [pending_start, Multiset.forall_mem_cons]
    exact ⟨by cases i <;> trivial, h.fits⟩
  | crash j =>
    refine ⟨(shared_crash (sem env) j p).symm ▸ h.rows, fun x hx => ?_⟩
    rw [shared_crash]
    exact h.fits x (Multiset.mem_of_le (pending_crash_le _ _ _) hx)
  | external =>
    obtain ⟨hos, has, hled⟩ := hadm
    refine ⟨h.rows.congr hos has hled, fun x hx => (h.fits x hx).mono
      ⟨fun k o ho => ⟨o, ?_, rfl, rfl, (fun h => h)⟩, fun aid b hb => ⟨b, ?_, rfl, rfl⟩⟩⟩
    · rwa [Threads.exec, hos]
    · rwa [Threads.exec, has]

/-- **A step keeps the accounts**: what it takes from the wallets is taken by the order it is about.
-/
theorem Accounts.exec (env : Env) (h : Accounts p.shared taken) (hsnd : Sound p)
    (hadm : Admissible l p) : Accounts (exec (sem env) l p).shared fun k user =>
      taken k user + stepDecreaseBy (exec (sem env)) party k
        (fun p => walletOf p.shared.users user) l p := by
  cases l with
  | step j a =>
    obtain hs | ⟨_, i, _, e, R, hth, hd, hsh, -⟩ := exec_does env hsnd j a
    · rw [hs]
      refine h.congr (.of_tables rfl rfl rfl) fun k user => ?_
      simp [stepDecreaseBy, hs]
    · obtain hs | ⟨id, hid, hws⟩ := hd.shared
      · rw [hsh, hs]
        refine h.congr (.of_tables rfl rfl rfl) fun k user => ?_
        simp [stepDecreaseBy, hsh, hs]
      · have hn := h.of_writes hsnd.rows hws
        simp only [stepDecreaseBy, party, Pool.head?_eq_some hth, bind_some, hid, hsh, some.injEq]
        simpa only [eq_comm (a := id)] using hn
  | start => exact h.congr (.of_tables rfl rfl rfl) fun k user => rfl
  | crash =>
    rw [shared_crash]
    exact h.congr (.of_tables rfl rfl rfl) fun k user => rfl
  | external => exact h.congr (.of_tables hadm.1 hadm.2.1 hadm.2.2) fun k user => rfl

/-- The order can still be failed. -/
def Db.Unbought (db : Db) (id : ℕ) : Prop :=
  ∃ o ∈ db.orders.get? id, o.status = .pendingProvider ∨ o.status = .purchaseUnknown
  deriving Decidable

/-- The instruction leaves settled activations alone: what the provider says about a completed one
is that it is completed, in the right currency and for the reserved price, and an order is failed as
a whole only while none of its activations is settled. -/
def Instr.Steady (db : Db) (i : Instr) : Prop :=
  (∀ r ∈ db.activations.table.rows, r.2.status = .completed → i.Keeps db r.1) ∧ match i with
    | .fail id _ => db.Unbought id →
      ∀ r ∈ db.activations.table.rows, r.2.orderId = id → ¬ r.2.status.Settled
    | _ => True

instance (db : Db) (i : Instr) : Decidable (i.Steady db) := by
  unfold Instr.Steady
  refine @instDecidableAnd _ _ inferInstance ?_
  split <;> infer_instance

/-- The steps that leave settled activations alone. -/
def Steady : Label Db Unit Instr Answer → Pool Db Unit Instr → Prop
  | .step j _, p => ∀ i ∈ p.head? j, i.Steady p.shared
  | _, _ => True

instance : ∀ l p, Decidable (Steady l p)
  | .step _ _, _ => inferInstanceAs (Decidable (∀ i ∈ _, Instr.Steady _ i))
  | .start _, _ => isTrue trivial
  | .crash _, _ => isTrue trivial
  | .external _, _ => isTrue trivial

/-- **A steady step leaves a settled activation alone.** -/
theorem exec_untouched (env : Env) (h : Sound p) (hadm : Admissible l p) (hste : Steady l p)
    (ha : p.shared.activations.get? aid = some a)
    (hset : a.status.Settled) : Untouched p.shared (exec (sem env) l p).shared aid a := by
  cases l with
  | step j answer =>
    obtain hsa | ⟨tag, i, _, e, hth, hsem, hsh, R, hbef, -⟩ := exec_cases (sem env) j answer p
    · rw [hsa]
      exact .refl ha
    · rw [hsh]
      have hi := hste i (Pool.head?_eq_some hth)
      have hft := h.fits (tag, i) (hbef ▸ Multiset.mem_cons_self _ _)
      by_cases hfl : ∃ id err, i = .fail id err
      · obtain ⟨id, err, rfl⟩ := hfl
        cases sem_leaves hsem with
        | stop => exact .refl ha
        | fail hok =>
          have hcas : _ ∨ Writes (fun _ => True) True id p.shared _ ∧ _ := fail_writes hok
          obtain rfl | ⟨hws, o, ho, hst⟩ := hcas
          · exact .refl ha
          · refine hws.untouched ha hset (fun _ => trivial) fun _ hord => ?_
            exact hi.2 ⟨o, ho, hst⟩ (aid, a) (get?_eq_some_iff.1 ha) hord hset
      · obtain hsa | ⟨id, -, hws⟩ := (sem_does env hsem hft h.rows.tidy).shared
        · rw [hsa]
          exact .refl ha
        · refine hws.untouched ha hset (fun hs => ?_) fun hw => ?_
          · exact hi.1 (aid, a) (get?_eq_some_iff.1 ha) hs
          · cases i <;> first | exact hw.elim | exact absurd ⟨_, _, rfl⟩ hfl
  | start => exact .refl ha
  | crash =>
    rw [shared_crash]
    exact .refl ha
  | external =>
    refine ⟨⟨a, ?_, rfl, rfl⟩, fun j l hl _ => ?_⟩
    · rw [Threads.exec, hadm.2.1]
      exact ha
    · rwa [Threads.exec, hadm.2.2] at hl

/-! ### Steps for examples -/

/-- One product of three dollars. -/
def exampleEnv : Env where
  sha256Hex s := s
  marshalRequest _ s _ _ := s
  decodeQuote _ := some { site := "s", domain := "d", cost := some 3, multiplier := some 1, issuedAt := 0 }

/-- A user with 100 quota, where a dollar is one. -/
def exampleOpened : Pool Db Unit Instr := opened (Table.empty.insert ⟨100, 1, 1, false⟩) ⟨1, 1⟩ 0

/-- The user starts a purchase, which comes to the reservation. -/
def reserveSteps : List (Label Db Unit Instr Answer) :=
  [.start ⟨(), [.create 1 "key" "offer" 1 .purchase none none]⟩, .step 0 .ok,
    .step 0 (.products [⟨"d", 9, 3⟩]), .step 0 .ok, .step 0 (.pages [[]]), .step 0 .ok]

/-- The provider's record of the address that is bought, in a currency. -/
def exampleRecord (currency : ℤ) : Record where
  id := "a"
  email := "x@d"
  code := "1234"
  cost := 3
  currencyCode := currency

/-- The purchase goes on to its end, and its address has received a code. -/
def boughtSteps : List (Label Db Unit Instr Answer) :=
  reserveSteps ++ [.step 0 .ok, .step 0 (.record (exampleRecord currencyCode)), .step 0 .ok, .step 0 .ok,
    .step 0 .ok, .step 0 .ok, .step 0 .ok, .step 0 .ok, .step 0 .ok]

/-- The user looks at the activation again. -/
def refreshSteps (currency : ℤ) : List (Label Db Unit Instr Answer) :=
  [.start ⟨(), [.refresh 1 1]⟩, .step 1 .ok, .step 1 (.record (exampleRecord currency)), .step 1 .ok]

/-- A reconciliation cancels the activation with the provider. -/
def compensateSteps : List (Label Db Unit Instr Answer) :=
  [.start ⟨(), [.reconcile 10]⟩, .step 2 .ok, .step 2 .ok, .step 2 .ok, .step 2 .ok, .step 2 .ok,
    .step 2 .ok, .step 2 .ok, .step 2 .ok]

/-- **The money of orders of e-mail addresses**: in every state that the processes can reach, what
the steps for an order took from the wallet of its user, and from no other, is what it costs and did
not give back; the ledger rows of the order are the same amount; its activations share the price;
and it gave back the price, if it failed as a whole, or the shares of its refunded activations. An
activation that is cancelled, refunded or completed stays so and is not refunded again, in every run
whose steps leave settled activations alone. Steps that are about no order leave all wallets alone.
-/
theorem email_orders_conserved (env : Env) (users : Table User) (settings : Settings) (now : ℤ)
    (steps : List (Label Db Unit Instr Answer))
    (hadm : Along (exec (sem env)) Admissible (opened users settings now) steps) :
    let p := run (exec (sem env)) (opened users settings now) steps
    (∀ id o, p.shared.orders.get? id = some o →
      0 ≤ o.refundedQuota ∧ o.refundedQuota ≤ o.chargeQuota ∧
      (∀ user, decreaseBy (exec (sem env)) party id (fun p => walletOf p.shared.users user)
          (opened users settings now) steps =
        if user = o.userId then o.chargeQuota - o.refundedQuota else 0) ∧
      p.shared.ledgerSum id = -(o.chargeQuota - o.refundedQuota) ∧
      p.shared.shares id = o.chargeQuota ∧
      (p.shared.FailedWhole id ∧ o.refundedQuota = o.chargeQuota ∨
        o.refundedQuota = p.shared.refundedShares id)) ∧
    (∀ more, Along (exec (sem env)) (fun l p => Admissible l p ∧ Steady l p) p more →
      ∀ aid a, p.shared.activations.get? aid = some a →
        a.status = .cancelled ∨ a.status = .refunded ∨ a.status = .completed →
        Untouched p.shared (run (exec (sem env)) p more).shared aid a) ∧
    ∀ j a, party (.step j a) p = none →
      (exec (sem env) (.step j a) p).shared.users = p.shared.users := by
  intro p
  obtain ⟨hsound, haccounts⟩ := decreaseBy_rule (μ := fun user p => walletOf p.shared.users user)
    (P := fun p taken => Sound p ∧ Accounts p.shared taken)
    (fun p taken l hl h => ⟨h.1.exec hl, Accounts.exec env h.2 h.1 hl⟩)
    ⟨sound_opened users settings now, accounts_opened users settings now⟩ hadm
  refine ⟨fun id o ho => ?_, fun more hmore aid a ha hsettled => ?_, fun j a hparty => ?_⟩
  · have hx := account_of_get? ho
    refine ⟨haccounts.nonneg id _ hx, haccounts.le id _ hx, fun user => ?_, ?_,
      haccounts.shares id _ hx, ?_⟩
    · have htaken := haccounts.taken id user
      rwa [zero_add, hx, elim_some] at htaken
    · have hledger := haccounts.ledger id
      rwa [Db.outstanding, hx, elim_some] at hledger
    · by_cases hfailed : p.shared.FailedWhole id
      · exact .inl ⟨hfailed, haccounts.whole id _ hx hfailed⟩
      · exact .inr (haccounts.parts id _ hx hfailed)
  · refine (run_rule (P := fun q => Sound q ∧ Untouched p.shared q.shared aid a) ?_
      ⟨hsound, .refl ha⟩ hmore).2
    rintro q l ⟨hl, hsteady⟩ ⟨hq, huntouched⟩
    obtain ⟨a', ha', horder, hstatus⟩ := huntouched.row
    exact ⟨hq.exec hl, huntouched.trans
      (exec_untouched env hq hl hsteady ha' (hstatus.symm ▸ hsettled)) horder hstatus⟩
  · obtain hsame | ⟨_, i, _, e, R, hthread, hdoes, hshared, -⟩ := exec_does (p := p) env hsound j a
    · rw [hsame]
    · obtain hsame | ⟨id, hid, -⟩ := hdoes.shared
      · rw [hshared, hsame]
      · simp only [party, Pool.head?_eq_some hthread, bind_some, hid] at hparty
        cases hparty

/-- The provider says again that the address has its code, in the right currency. -/
theorem email_orders_conserved_refreshed :
    let p := run (exec (sem exampleEnv)) exampleOpened boughtSteps
    decreaseBy (exec (sem exampleEnv)) party 1 (fun p => walletOf p.shared.users 1) exampleOpened
        boughtSteps = 3 ∧
      ∃ a, p.shared.activations.get? 1 = some a ∧ a.status = .completed ∧
        Untouched p.shared (run (exec (sem exampleEnv)) p (refreshSteps currencyCode)).shared 1 a := by
  intro p
  have hadm : Along (exec (sem exampleEnv)) Admissible exampleOpened boughtSteps := by
    simp [boughtSteps, reserveSteps, Along, Admissible, Instr.isEntry]
  have hadm' : Along (exec (sem exampleEnv)) Admissible p (refreshSteps currencyCode) := by
    simp [refreshSteps, Along, Admissible, Instr.isEntry]
  obtain ⟨o, ho, huser, hcharge, hrefunded⟩ : ∃ o ∈ p.shared.orders.get? 1,
      o.userId = 1 ∧ o.chargeQuota = 3 ∧ o.refundedQuota = 0 := by
    decide +kernel
  obtain ⟨a, ha, hstatus⟩ : ∃ a ∈ p.shared.activations.get? 1, a.status = .completed := by
    decide +kernel
  obtain ⟨hmoney, hlater, -⟩ := email_orders_conserved exampleEnv _ _ _ boughtSteps hadm
  have hdecrease := (hmoney 1 o ho).2.2.1 1
  rw [huser, hcharge, hrefunded] at hdecrease
  exact ⟨hdecrease, a, ha, hstatus,
    hlater _ (hadm'.and (by decide +kernel)) 1 a ha (.inr (.inr hstatus))⟩

/-- **A completed activation can be refunded**: the provider delivered the code, and later names
another currency for the address. A look at the activation makes it one that is to be cancelled, and
the next reconciliation cancels it and gives the price back. -/
theorem completed_then_refunded : let p := run (exec (sem exampleEnv)) exampleOpened boughtSteps
    let q := run (exec (sem exampleEnv)) p (refreshSteps 1 ++ compensateSteps)
    Along (exec (sem exampleEnv)) Admissible exampleOpened
        (boughtSteps ++ (refreshSteps 1 ++ compensateSteps)) ∧
      (p.shared.activations.get? 1).map Activation.status = some .completed ∧
      (q.shared.activations.get? 1).map Activation.status = some .refunded ∧
      walletOf p.shared.users 1 = 97 ∧ walletOf q.shared.users 1 = 100 := by
  refine ⟨?_, ?_, ?_, ?_, ?_⟩
  · simp [boughtSteps, reserveSteps, refreshSteps, compensateSteps, Along, Admissible, Instr.isEntry]
  all_goals decide +kernel

end LmmApi.HeroSms.Email
