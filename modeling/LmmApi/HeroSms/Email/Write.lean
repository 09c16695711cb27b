import LmmApi.HeroSms.Email.Process

/-!
# What a process can write

A statement on an order of e-mail addresses is a sequence of small writes, `Write keep whole id`: of
the columns of the order that say how far it has come, of activations that are not refunded by it,
of one activation that is refunded together with the refund, of the refund of the whole order, which
only `whole` permits, and of a new order. Activations for which `keep` holds stay completed.

`sem_does` says that every instruction does such writes for the order it is about, and what it leads
to: `Instr.Fits` is what is known of the rows that an instruction has read, `Instr.Leads` how the
lease goes along a process, and `Instr.purchasing` which purchases are under way.
-/

namespace LmmApi.HeroSms.Email

open Guarded Threads Relation List Option Table UniqueTable Db Db.Prepared

/-! ## Writes -/

/-- The amounts of an order are the same, and it does not go back to its first status. -/
structure Order.Marks (o o' : Order) : Prop where
  userId : o'.userId = o.userId
  chargeQuota : o'.chargeQuota = o.chargeQuota
  refundedQuota : o'.refundedQuota = o.refundedQuota
  status : o'.status = .pendingProvider → o.status = .pendingProvider

/-- The statuses that an activation does not leave. -/
def Status.Closed (s : Status) : Prop := s = .cancelled ∨ s = .refunded
  deriving Decidable

/-- The columns that say whose activation a row is, and for what price. -/
structure Activation.Same (a a' : Activation) : Prop where
  orderId : a'.orderId = a.orderId
  chargeQuota : a'.chargeQuota = a.chargeQuota
  refundQuota : a'.refundQuota = a.refundQuota ∨ a'.refundQuota = 0 ∨ a'.refundQuota = a.chargeQuota

/-- What a write without a refund does to an activation, which stays completed if `keep` holds. -/
structure Activation.Moves (keep : Prop) (a a' : Activation) : Prop where
  same : a.Same a'
  closed : a.status.Closed → a'.status = a.status
  refunded : a'.status = .refunded → a.status = .refunded
  completed : keep → a.status = .completed → a'.status = .completed

/-- What a refund does: nothing for nothing, nothing if it is in the ledger already, or a payment.
-/
inductive Paid (db db' : Db) (row : Ledger) : Prop
  | nothing (h : row.amountQuota ≤ 0) (horders : db'.orders = db.orders)
      (husers : db'.users = db.users) (hledger : db'.ledger = db.ledger)
  | repeated (h : ∃ j r, db.ledger.get? j = some r ∧ r.key = row.key)
      (horders : db'.orders = db.orders) (husers : db'.users = db.users)
      (hledger : db'.ledger = db.ledger)
  | paid (hpos : 0 < row.amountQuota) (o : Order) (ho : db.orders.get? row.orderId = some o)
      (hle : o.refundedQuota + row.amountQuota ≤ o.chargeQuota)
      (horders : db'.orders.table = db.orders.table.modify row.orderId
        fun o => { o with refundedQuota := o.refundedQuota + row.amountQuota })
      (u : User) (hu : db.users.get? row.userId = some u)
      (husers : db'.users = db.users.modify row.userId (User.addQuota row.amountQuota))
      (hledger : db'.ledger.table = db.ledger.table.insert row)

/-- The tables other than the activations are the same. -/
structure SameElsewhere (db db' : Db) : Prop where
  orders : db'.orders = db.orders
  users : db'.users = db.users
  ledger : db'.ledger = db.ledger

/-- The small writes for the order `id`. -/
inductive Write (keep : ℕ → Prop) (whole : Prop) (id : ℕ) (db db' : Db) : Prop
  | order (f : Order → Order) (horders : db'.orders.table = db.orders.table.modify id f)
      (hmarks : ∀ o, db.orders.get? id = some o → o.Marks (f o))
      (hactivations : db'.activations = db.activations) (husers : db'.users = db.users)
      (hledger : db'.ledger = db.ledger)
  | activations (p : ℕ → Activation → Prop) [∀ aid a, Decidable (p aid a)]
      (f : Activation → Activation)
      (hactivations : db'.activations.table = db.activations.table.modifyWhere p f)
      (hmoves : ∀ aid a, db.activations.get? aid = some a → p aid a →
        a.orderId = id ∧ a.Moves (keep aid) (f a))
      (helse : SameElsewhere db db')
  | refund (aid : ℕ) (a : Activation) (f : Activation → Activation) (reason : Option CancelReason)
      (o : Order) (ha : db.activations.get? aid = some a) (horder : a.orderId = id)
      (ho : db.orders.get? id = some o)
      (hactivations : db'.activations.table = db.activations.table.modify aid f)
      (hsame : a.Same (f a)) (hopen : ¬ a.status.Closed) (hkeep : keep aid → a.status ≠ .completed)
      (hstatus : (f a).status = .refunded)
      (hpaid : Paid db db'
        { userId := o.userId, orderId := id, activationId := some aid, amountQuota := a.chargeQuota,
          key := .refund aid reason })
  | whole (hwhole : whole) (o : Order) (ho : db.orders.get? id = some o)
      (hactivations : db'.activations = db.activations)
      (hpaid : Paid db db'
        { userId := o.userId, orderId := id, amountQuota := o.chargeQuota, key := .orderFailure id })
  | reserve (o : Order) (slots : List Activation) (hid : id = db.orders.table.next)
      (horders : db'.orders.table = db.orders.table.insert o)
      (hactivations : db.activations.insertAll? slots = some db'.activations)
      (hslots : ∀ a ∈ slots, a.orderId = id ∧ 0 ≤ a.chargeQuota ∧ a.refundQuota = 0 ∧
        a.status = .pendingProvider)
      (hsum : (slots.map Activation.chargeQuota).sum = o.chargeQuota)
      (hrefunded : o.refundedQuota = 0)
      (hledger : db'.ledger.table = db.ledger.table.insert
        { userId := o.userId, orderId := id, amountQuota := -o.chargeQuota, key := .reserve id })
      (u : User) (hu : db.users.get? o.userId = some u)
      (husers : db'.users = db.users.modify o.userId (User.addQuota (-o.chargeQuota)))

/-- A sequence of small writes for the order `id`. -/
abbrev Writes (keep : ℕ → Prop) (whole : Prop) (id : ℕ) : Db → Db → Prop :=
  ReflTransGen (Write keep whole id)

/-- Rows stay, with what never changes in them. -/
structure Grows (db db' : Db) : Prop where
  orders : ∀ id o, db.orders.get? id = some o → ∃ o', db'.orders.get? id = some o' ∧
    o'.userId = o.userId ∧ o'.chargeQuota = o.chargeQuota ∧
    (o'.status = .pendingProvider → o.status = .pendingProvider)
  activations : ∀ aid a, db.activations.get? aid = some a →
    ∃ a', db'.activations.get? aid = some a' ∧ a'.orderId = a.orderId ∧ a'.chargeQuota = a.chargeQuota

section Writes

variable {db db' db'' : Db} {keep : ℕ → Prop} {whole : Prop} {id : ℕ}

theorem Grows.refl (db : Db) : Grows db db :=
  ⟨fun _ o ho => ⟨o, ho, rfl, rfl, (fun h => h)⟩, fun _ a ha => ⟨a, ha, rfl, rfl⟩⟩

theorem Grows.trans (h : Grows db db') (h' : Grows db' db'') : Grows db db'' where
  orders id o ho := by
    obtain ⟨o₁, ho₁, hu, hch, hst⟩ := h.orders id o ho
    obtain ⟨o₂, ho₂, hu', hch', hst'⟩ := h'.orders id o₁ ho₁
    exact ⟨o₂, ho₂, hu'.trans hu, hch'.trans hch, fun hp => hst (hst' hp)⟩
  activations aid a ha := by
    obtain ⟨a₁, ha₁, hord, hch⟩ := h.activations aid a ha
    obtain ⟨a₂, ha₂, hord', hch'⟩ := h'.activations aid a₁ ha₁
    exact ⟨a₂, ha₂, hord'.trans hord, hch'.trans hch⟩

theorem Paid.orders_grow {row : Ledger} (h : Paid db db' row) {j : ℕ} {o : Order}
    (ho : db.orders.get? j = some o) : ∃ o', db'.orders.get? j = some o' ∧ o'.userId = o.userId ∧
      o'.chargeQuota = o.chargeQuota ∧ (o'.status = .pendingProvider → o.status = .pendingProvider) := by
  cases h with
  | nothing _ hos | repeated _ hos => exact ⟨o, hos ▸ ho, rfl, rfl, fun h => h⟩
  | paid _ _ _ _ hos =>
    rw [UniqueTable.get?, hos]
    exact exists_get?_modify _ ho (fun _ => ⟨rfl, rfl, fun h => h⟩) fun _ => ⟨rfl, rfl, fun h => h⟩

theorem Paid.congr {row : Ledger} (h : Paid db' db'' row) (helse : SameElsewhere db db') :
    Paid db db'' row := by
  obtain ⟨hos, hus, hled⟩ := helse
  cases h with
  | nothing h hos' hus' hled' =>
    exact .nothing h (hos'.trans hos) (hus'.trans hus) (hled'.trans hled)
  | repeated h hos' hus' hled' =>
    exact .repeated (hled ▸ h) (hos'.trans hos) (hus'.trans hus) (hled'.trans hled)
  | paid hpos o ho hle hos' u hu hus' hled' =>
    exact .paid hpos o (hos ▸ ho) hle (hos ▸ hos') u (hus ▸ hu) (hus ▸ hus') (hled ▸ hled')

theorem Write.grows (h : Write keep whole id db db') : Grows db db' := by
  cases h with
  | order f hos hmar has =>
    refine ⟨fun j o ho => ?_, fun aid a ha => ⟨a, has ▸ ha, rfl, rfl⟩⟩
    rw [UniqueTable.get?, hos]
    refine exists_get?_modify f ho (fun _ => ⟨rfl, rfl, fun h => h⟩) fun hj => ?_
    have hmk := hmar o (hj ▸ ho)
    exact ⟨hmk.userId, hmk.chargeQuota, hmk.status⟩
  | activations p f has hmv helse =>
    refine ⟨fun j o ho => ⟨o, helse.orders ▸ ho, rfl, rfl, (fun h => h)⟩, fun aid a ha => ?_⟩
    have hg := get?_modifyWhere db.activations.table p f aid
    rw [← has, show db.activations.table.get? aid = some a from ha, map_some] at hg
    refine ⟨_, hg, ?_⟩
    split
    case isTrue hp =>
      have hs := (hmv aid a ha hp).2.same
      exact ⟨hs.orderId, hs.chargeQuota⟩
    case isFalse => exact ⟨rfl, rfl⟩
  | refund _ _ _ _ o ha _ ho has hs _ _ _ hpa =>
    refine ⟨fun j o ho => hpa.orders_grow ho, fun aid' b hb => ?_⟩
    rw [UniqueTable.get?, has]
    refine exists_get?_modify _ hb (fun _ => ⟨rfl, rfl⟩) fun hj => ?_
    subst hj
    obtain rfl := mem_unique ha hb
    exact ⟨hs.orderId, hs.chargeQuota⟩
  | whole _ o ho has hpa =>
    exact ⟨fun j o ho => hpa.orders_grow ho, fun aid a ha => ⟨a, has ▸ ha, rfl, rfl⟩⟩
  | reserve _ _ _ hos has =>
    refine ⟨fun j o' ho' => ⟨o', ?_, rfl, rfl, (fun h => h)⟩, fun aid a ha =>
      ⟨a, get?_of_insertAll? has ha, rfl, rfl⟩⟩
    rw [UniqueTable.get?, hos]
    exact get?_insert_of_get? ho'

theorem Writes.grows (h : Writes keep whole id db db') : Grows db db' := by
  induction h with
  | refl => exact .refl db
  | tail _ hw ih => exact ih.trans hw.grows

end Writes

/-! ## Statements -/

section Statements

variable {db db' : Db} {keep : ℕ → Prop} {whole : Prop} {id aid : ℕ} {o : Order}

/-- An update of the columns of an order that say how far it has come. -/
theorem marked_write {f : Order → Order} {hf : ∀ o, (f o).keys = o.keys} (hmar : ∀ o : Order, o.Marks (f o)) :
    Write keep whole id db { db with orders := db.orders.modify id f hf } :=
  .order f rfl (fun o _ => hmar o) rfl rfl rfl

variable {a : Activation} {code message : String} {status : OrderStatus} {item : Db.Prepared}
  {user orderId : ℕ} {now : ℤ}

theorem marks_marked (hst : status ≠ .pendingProvider) (o : Order) :
    o.Marks (marked now status code message o) :=
  ⟨rfl, rfl, rfl, fun h => absurd h hst⟩

theorem aggregated_ne (acts : List Activation) : (aggregated acts).1 ≠ .pendingProvider := by
  unfold aggregated
  split
  · exact nofun
  · split <;> exact nofun

theorem aggregate_writes (h : db.aggregate id = .ok db') : Writes keep whole id db db' := by
  simp only [aggregate, eq_ok] at h
  obtain ⟨o, -, h⟩ := h
  split at h
  · rw [pure_eq_ok.1 h]
  · rw [← pure_eq_ok.1 h]
    exact .single (marked_write (marks_marked (aggregated_ne _)))

/-- The mark of an order with an update of some of its activations, in which none of them is closed
or completed. -/
theorem marked_writes {p : ℕ → Activation → Prop}
    [∀ aid a, Decidable (p aid a)] {status' : Status} (hst : status ≠ .pendingProvider)
    (hst' : status' ≠ .refunded)
    (hp : ∀ aid a, p aid a → a.orderId = id ∧ ¬ a.status.Closed ∧ a.status ≠ .completed) :
    Writes keep whole id db { db with
      orders := db.orders.modify id (marked db.unix status code message) fun _ => rfl
      activations := db.activations.modifyWhere p (.withStatus status' db.unix) fun _ => rfl } := by
  have hmk : Write keep whole id db { db with
      orders := db.orders.modify id (marked db.unix status code message) fun _ => rfl } :=
    marked_write (marks_marked hst)
  refine .tail (.single hmk) (.activations p (.withStatus status' db.unix) rfl ?_ ⟨rfl, rfl, rfl⟩)
  intro aid a _ hpa
  obtain ⟨hord, hop, hcom⟩ := hp aid a hpa
  exact ⟨hord, ⟨rfl, rfl, .inl rfl⟩, fun h => absurd h hop, fun h => absurd h hst',
    fun _ h => absurd h hcom⟩

theorem mark_writes (hst : status ≠ .pendingProvider) :
    Writes keep whole id db (db.mark id status code message) := by
  refine marked_writes hst nofun fun aid a ⟨hord, hpen⟩ => ⟨hord, ?_⟩
  rw [hpen]
  exact ⟨by decide, nofun⟩

theorem refundTx_eq_ok {row : Ledger} (h : db.refundTx row = .ok db') :
    Paid db db' row ∧ db'.activations = db.activations := by
  unfold refundTx at h
  split at h
  case isTrue hle =>
    cases h
    exact ⟨.nothing hle rfl rfl rfl, rfl⟩
  case isFalse hpos =>
    split at h
    case h_1 hins =>
      cases h
      obtain ⟨j, r, hr, k, hk, hk'⟩ := exists_of_insert?_eq_none hins
      obtain rfl : k = row.key := mem_singleton.1 hk
      exact ⟨.repeated ⟨j, r, hr, (mem_singleton.1 hk').symm⟩ rfl rfl rfl, rfl⟩
    case h_2 _ hins =>
      simp only [eq_ok] at h
      obtain ⟨o, ho, hle, _, hus, rfl⟩ := h
      obtain ⟨u, hu, rfl⟩ := applyWalletQuotaDelta_eq_ok hus
      exact ⟨.paid (not_le.1 hpos) o ho hle rfl u hu rfl (insert?_eq_some hins).2, rfl⟩

theorem failRows_writes {e : HeroError} : Writes keep whole id db (db.failRows id e) := by
  refine marked_writes nofun nofun fun aid a ⟨hord, hop⟩ => ⟨hord, ?_⟩
  rcases hop with h | h <;> rw [h] <;> exact ⟨by decide, nofun⟩

/-- The order is failed as a whole only in its first two statuses. -/
theorem fail_writes {e : HeroError} (h : db.fail id e = .ok db') :
    db' = db ∨ Writes keep True id db db' ∧ ∃ o, db.orders.get? id = some o ∧
      (o.status = .pendingProvider ∨ o.status = .purchaseUnknown) := by
  simp only [fail, eq_ok] at h
  obtain ⟨o, ho, h⟩ := h
  split at h
  case isTrue => exact .inl (pure_eq_ok.1 h).symm
  case isFalse hst =>
    obtain ⟨hp, has⟩ := refundTx_eq_ok h
    refine .inr ⟨.tail failRows_writes (.whole trivial _ (get?_modify_eq_some ho) has hp), o, ho, ?_⟩
    by_contra hnei
    rw [not_or] at hnei
    exact hst hnei

/-- What is known of an activation as it was read. -/
def Snapshot (db : Db) (aid : ℕ) (a : Activation) : Prop :=
  ∃ a', db.activations.get? aid = some a' ∧ a'.orderId = a.orderId ∧ a'.chargeQuota = a.chargeQuota

/-- What is known of what was prepared for an activation. -/
def Ready (db : Db) (id : ℕ) (slot : ℕ × Db.Prepared) : Prop :=
  ∃ a, db.activations.get? slot.1 = some a ∧ a.orderId = id ∧
    (slot.2.refundQuota = 0 ∨ slot.2.refundQuota = a.chargeQuota) ∧
    (slot.2.status = .refunded → slot.2.refundQuota = a.chargeQuota)

/-- An activation of an order. -/
def Belongs (db : Db) (aid orderId : ℕ) : Prop :=
  ∃ a, db.activations.get? aid = some a ∧ a.orderId = orderId

theorem Snapshot.mono (h : Snapshot db aid a) (hgr : Grows db db') : Snapshot db' aid a := by
  obtain ⟨a₁, ha₁, hord, hch⟩ := h
  obtain ⟨a₂, ha₂, hord', hch'⟩ := hgr.activations aid a₁ ha₁
  exact ⟨a₂, ha₂, hord'.trans hord, hch'.trans hch⟩

theorem Ready.mono {slot : ℕ × Db.Prepared} (h : Ready db id slot) (hgr : Grows db db') :
    Ready db' id slot := by
  obtain ⟨a, ha, hord, hquo, href⟩ := h
  obtain ⟨a', ha', hord', hch⟩ := hgr.activations slot.1 a ha
  exact ⟨a', ha', hord'.trans hord, by rwa [hch], by rwa [hch]⟩

theorem Belongs.mono (h : Belongs db aid id) (hgr : Grows db db') : Belongs db' aid id := by
  obtain ⟨a, ha, hord⟩ := h
  obtain ⟨a', ha', hord', -⟩ := hgr.activations aid a ha
  exact ⟨a', ha', hord'.trans hord⟩

theorem Prepared.row_of_open (h : a.status ≠ .cancelPending) :
    (item.row now a).status = item.status ∧ (item.row now a).refundQuota = item.refundQuota := by
  simp [row, h]

theorem Prepared.row_of_cancelPending (h : a.status = .cancelPending) :
    (item.row now a).status = .cancelPending ∧ (item.row now a).refundQuota = a.refundQuota := by
  simp [row, h]

theorem Prepared.same_row
    (h : item.refundQuota = 0 ∨ item.refundQuota = a.chargeQuota) : a.Same (item.row now a) := by
  by_cases hst : a.status = .cancelPending
  · exact ⟨by simp [row, hst], by simp [row, hst], .inl (row_of_cancelPending hst).2⟩
  · refine ⟨by simp [row, hst], by simp [row, hst], .inr ?_⟩
    rwa [(row_of_open hst).2]

theorem finalizeSlot_writes {slot : ℕ × Db.Prepared} {user : ℕ} (hrdy : Ready db id slot)
    (ho : db.orders.get? id = some o) (hu : o.userId = user)
    (hkp : keep slot.1 → slot.2.status = .completed)
    (h : db.finalizeSlot id user slot = .ok db') : Writes keep whole id db db' := by
  obtain ⟨aid, item⟩ := slot
  simp only [finalizeSlot, eq_ok, filter_eq_some_iff, decide_eq_true_eq] at h
  obtain ⟨a, ⟨ha, hord⟩, h⟩ := h
  obtain ⟨a', ha', -, hquo, href⟩ := hrdy
  obtain rfl := mem_unique ha ha'
  split at h
  case isTrue => rw [pure_eq_ok.1 h]
  case isFalse hop =>
    simp only [eq_ok] at h
    obtain ⟨_, hset, h⟩ := h
    have htab := (set?_eq_some hset).2
    split at h
    case isTrue hrf =>
      obtain ⟨hst, hitem⟩ := hrf
      obtain ⟨hp, has⟩ := refundTx_eq_ok h
      refine .single (.refund aid a (fun _ => item.row db.unix a) item.cancelReason o ha
        hord ho (has ▸ htab) (Prepared.same_row hquo) hop (fun hk => ?_) ?_ ?_)
      · cases (hkp hk).symm.trans hitem
      · exact (Prepared.row_of_open hst).1.trans hitem
      · rw [hu, ← href hitem]
        exact hp.congr ⟨rfl, rfl, rfl⟩
    case isFalse hrf =>
      obtain rfl := pure_eq_ok.1 h
      refine .single (.activations (fun j _ => j = aid) (fun _ => item.row db.unix a) htab ?_
        ⟨rfl, rfl, rfl⟩)
      rintro j b hb rfl
      obtain rfl := mem_unique ha hb
      refine ⟨hord, Prepared.same_row hquo, fun hcl => absurd hcl hop, fun hst => ?_,
        fun hk hcom => ?_⟩
      · by_cases hpen : a.status = .cancelPending
        · cases (Prepared.row_of_cancelPending hpen).1.symm.trans hst
        · exact absurd ⟨hpen, (Prepared.row_of_open hpen).1.symm.trans hst⟩ hrf
      · have hpen : a.status ≠ .cancelPending := by rw [hcom]; exact nofun
        exact (Prepared.row_of_open hpen).1.trans (hkp hk)

section

variable {slots : List (ℕ × Db.Prepared)} (hrdy : ∀ slot ∈ slots, Ready db id slot)
include hrdy

theorem finalizeSlots_writes {user : ℕ} (ho : db.orders.get? id = some o)
    (hu : o.userId = user) (hkp : ∀ slot ∈ slots, keep slot.1 → slot.2.status = .completed)
    (h : slots.foldlM (fun db slot => db.finalizeSlot id user slot) db = .ok db') :
    Writes keep whole id db db' := by
  induction slots generalizing db o with
  | nil =>
    rw [foldlM_nil, pure_eq_ok] at h
    rw [h]
  | cons slot _ ih =>
    rw [foldlM_cons, bind_eq_ok] at h
    obtain ⟨db₁, hslot, h⟩ := h
    have hfst : Writes keep whole id db db₁ :=
      finalizeSlot_writes (hrdy slot (by simp)) ho hu (hkp slot (by simp)) hslot
    obtain ⟨o₁, ho₁, hu₁, -⟩ := hfst.grows.orders id o ho
    refine hfst.trans (ih (fun s hs => ?_) ho₁ (hu₁.trans hu) (fun s hs => ?_) h)
    · exact (hrdy s (mem_cons_of_mem slot hs)).mono hfst.grows
    · exact hkp s (mem_cons_of_mem slot hs)

theorem finalize_writes (hkp : ∀ slot ∈ slots, keep slot.1 → slot.2.status = .completed)
    (h : db.finalize id slots = .ok db') : Writes keep whole id db db' := by
  simp only [finalize, eq_ok] at h
  obtain ⟨o, ho, _, hslo, h⟩ := h
  exact (finalizeSlots_writes hrdy ho rfl hkp hslo).trans (aggregate_writes h)

end

theorem statusOf_ne (r : Record) : statusOf r ≠ .refunded := by
  unfold statusOf
  split
  · exact nofun
  · dsimp only
    repeat' split
    all_goals exact nofun

theorem outcome_ne (reserved : ℚ) (r : Record) : (outcome reserved r).1 ≠ .refunded := by
  unfold outcome
  split
  · exact nofun
  · split
    · exact nofun
    · exact statusOf_ne r

theorem persistUpdate_writes {read : Activation} {reserved : ℚ} {r : Record}
    (hsna : Snapshot db aid read) (hkp : keep aid → (outcome reserved r).1 = .completed)
    (h : db.persistUpdate aid read reserved r = .ok db') : Writes keep whole read.orderId db db' := by
  unfold persistUpdate at h
  split at h
  case h_1 => rw [Except.ok.inj h]
  case h_2 _ ha =>
    simp only [filter_eq_some_iff, decide_eq_true_eq] at ha
    obtain ⟨ha, -, hcan, href⟩ := ha
    simp only [eq_ok] at h
    obtain ⟨_, hset, rfl⟩ := h
    obtain ⟨a', ha', hord, hch⟩ := hsna
    obtain rfl := mem_unique ha ha'
    refine .single (.activations (fun j _ => j = aid) _ (set?_eq_some hset).2 ?_ ⟨rfl, rfl, rfl⟩)
    rintro j b hb rfl
    obtain rfl := mem_unique ha hb
    refine ⟨hord, ⟨rfl, rfl, .inr ?_⟩, fun hcl => ?_, fun hst => ?_, fun hk _ => hkp hk⟩
    · unfold persistedRow
      dsimp only
      split
      · exact .inl rfl
      · exact .inr hch.symm
    · exact absurd hcl (not_or.2 ⟨hcan, href⟩)
    · exact absurd hst (outcome_ne reserved r)

theorem persist_writes {read : Activation} {r : Record} (hsna : Snapshot db aid read)
    (hkp : keep aid → ∀ o, db.orders.get? read.orderId = some o →
      (outcome o.reservedUnitCost r).1 = .completed)
    (h : db.persist aid read r = .ok db') : Writes keep whole read.orderId db db' := by
  simp only [persist, eq_ok] at h
  obtain ⟨-, o, ho, _, hupd, h⟩ := h
  exact (persistUpdate_writes hsna (fun hk => hkp hk o ho) hupd).trans (aggregate_writes h)

/-- An update of an activation that is open and not completed, and the mark of its order. -/
theorem setActivation_writes {f : Activation → Activation} {hf : ∀ a, (f a).keys = a.keys}
    (ha : db.activations.get? aid = some a)
    (h : (db.setActivation aid f hf).aggregate a.orderId = .ok db') (hs : a.Same (f a))
    (hst : (f a).status ≠ .refunded) (hop : ¬ a.status.Closed) (hcom : a.status ≠ .completed) :
    Writes keep whole a.orderId db db' := by
  refine .head (b := db.setActivation aid f hf)
    (.activations (fun j _ => j = aid) f rfl ?_ ⟨rfl, rfl, rfl⟩) (aggregate_writes h)
  rintro j b hb rfl
  obtain rfl := mem_unique ha hb
  exact ⟨rfl, hs, fun h => absurd h hop, fun h => absurd h hst, fun _ h => absurd h hcom⟩

theorem lockedActivation_eq_ok
    (h : db.lockedActivation user aid orderId = .ok a) : db.activations.get? aid = some a := by
  simp only [lockedActivation, activationOf, eq_ok, filter_eq_some_iff] at h
  obtain ⟨_, -, ha, -⟩ := h
  exact ha

/-- The claim of a cancellation does nothing, or it moves an activation that is neither closed nor
completed, and its order. -/
theorem claimCancel_eq_ok {provider : String} (hbel : Belongs db aid orderId)
    (h : db.claimCancel user aid orderId = .ok (provider, db')) :
    (provider = "" ∧ db' = db) ∨ ∃ x, db.activations.get? aid = some x ∧ x.orderId = orderId ∧
      provider = Go.trimSpace (x.providerId.getD "") ∧ ¬ x.status.Closed ∧ x.status ≠ .completed ∧
      (db.setActivation aid (claimedRow db.unix) fun _ => rfl).aggregate orderId = .ok db' := by
  simp only [claimCancel, bind_eq_ok] at h
  obtain ⟨x, hloc, h⟩ := h
  have hx := lockedActivation_eq_ok hloc
  obtain ⟨y, hy, rfl⟩ := hbel
  obtain rfl := mem_unique hx hy
  split at h
  case h_1 | h_2 | h_3 =>
    obtain ⟨hpv, hs⟩ := Prod.mk.inj (pure_eq_ok.1 h)
    exact .inl ⟨hpv.symm, hs.symm⟩
  case h_4 | h_5 => cases h
  all_goals
    rename_i hst
    simp only [eq_ok] at h
    obtain ⟨_, hagg, hpv, rfl⟩ := h
    refine .inr ⟨x, hx, rfl, hpv.symm, ?_, ?_, hagg⟩ <;> rw [hst] <;> decide

theorem claimCancel_writes {provider : String} (hbel : Belongs db aid orderId)
    (h : db.claimCancel user aid orderId = .ok (provider, db')) :
    Writes keep whole orderId db db' := by
  obtain ⟨-, rfl⟩ | ⟨x, hx, rfl, -, hop, hcom, hagg⟩ := claimCancel_eq_ok hbel h
  · exact .refl
  · exact setActivation_writes hx hagg ⟨rfl, rfl, .inl rfl⟩ nofun hop hcom

theorem confirmCancel_writes (hbel : Belongs db aid orderId)
    (h : db.confirmCancel user aid orderId = .ok db') : Writes keep whole orderId db db' := by
  simp only [confirmCancel, bind_eq_ok] at h
  obtain ⟨a, hloc, h⟩ := h
  have ha := lockedActivation_eq_ok hloc
  obtain ⟨a', ha', rfl⟩ := hbel
  obtain rfl := mem_unique ha ha'
  split at h
  case isTrue => rw [pure_eq_ok.1 h]
  case isFalse hst =>
    obtain ⟨hpen, -⟩ := not_or.1 hst
    rw [not_not] at hpen
    refine setActivation_writes ha h ⟨rfl, rfl, .inl rfl⟩ nofun ?_ ?_ <;> rw [hpen] <;> decide

theorem compensation_eq (h : a.refundQuota = 0 ∨ a.refundQuota = a.chargeQuota) :
    compensation a = a.chargeQuota := by
  unfold compensation
  split
  · rfl
  · rcases h with h | h
    · omega
    · exact h

theorem compensate_writes {orderId : ℕ} (hbel : Belongs db aid orderId)
    (hquo : ∀ a, db.activations.get? aid = some a →
      a.refundQuota = 0 ∨ a.refundQuota = a.chargeQuota)
    (h : db.compensate aid orderId = .ok db') : Writes keep whole orderId db db' := by
  simp only [compensate, eq_ok] at h
  obtain ⟨o, ho, a, ha, h⟩ := h
  obtain ⟨a', ha', rfl⟩ := hbel
  obtain rfl := mem_unique ha ha'
  split at h
  case isTrue => rw [pure_eq_ok.1 h]
  case isFalse hpen =>
    rw [not_not] at hpen
    have hop : ¬ a.status.Closed := by rw [hpen]; decide
    have hcp : a.status ≠ .completed := by rw [hpen]; exact nofun
    split at h
    case isTrue =>
      simp only [bind_eq_ok] at h
      obtain ⟨_, hrf, h⟩ := h
      obtain ⟨hp, has⟩ := refundTx_eq_ok hrf
      have hcom := compensation_eq (hquo a ha)
      refine .head (.refund aid a (compensatedRow db.unix) a.cancelReason o ha rfl ho ?_
        ⟨rfl, rfl, .inr (.inr hcom)⟩ hop (fun _ => hcp) rfl ?_) (aggregate_writes h)
      · rw [has]
        rfl
      · rw [← hcom]
        exact hp.congr ⟨rfl, rfl, rfl⟩
    case isFalse =>
      exact setActivation_writes ha h ⟨rfl, rfl, .inl rfl⟩ nofun hop hcp

theorem touchOrder_writes : Writes keep whole id db (db.touchOrder id) :=
  .single (marked_write fun _ => ⟨rfl, rfl, rfl, fun h => h⟩)

theorem touchActivation_writes :
    Writes keep whole ((db.activations.get? aid).elim 0 Activation.orderId) db
      (db.touchActivation aid) := by
  refine .single (.activations (fun j _ => j = aid)
    (fun a => { a with lastReconciledAt := db.now }) rfl ?_ ⟨rfl, rfl, rfl⟩)
  rintro j a ha rfl
  rw [ha, elim_some]
  exact ⟨rfl, ⟨rfl, rfl, .inl rfl⟩, fun _ => rfl, fun h => h, fun _ h => h⟩

end Statements

/-! ## The price of a purchase -/

/-- The slots that carry the remainder. -/
theorem sum_remainder (base remainder : ℤ) (hrem : 0 ≤ remainder) (n : ℕ) :
    ((List.range n).map fun slot : ℕ =>
      if ((slot + 1 : ℕ) : ℤ) ≤ remainder then base + 1 else base).sum = n * base + min (n : ℤ) remainder := by
  induction n with
  | zero => simp [hrem]
  | succ n ih =>
    rw [range_succ, map_append, sum_append, ih]
    simp only [map_cons, map_nil, sum_cons, sum_nil, add_zero]
    push_cast
    split
    · rw [min_eq_left (by omega), min_eq_left (by omega)]
      ring
    · rw [min_eq_right (by omega), min_eq_right (by omega)]
      ring

variable {provider : Option String} {x : Activation} {quantity : ℕ} {p : Purchase} {db : Db}

section

variable {total : ℤ} (htot : 0 ≤ total) (hqua : 1 ≤ quantity)
include htot hqua

theorem quotaForSlot_eq (slot : ℕ) : quotaForSlot total quantity (slot + 1) =
      if ((slot + 1 : ℕ) : ℤ) ≤ total % quantity then total / quantity + 1 else total / quantity := by
  unfold quotaForSlot
  rw [Int.tdiv_eq_ediv_of_nonneg htot, Int.tmod_eq_emod_of_nonneg htot]
  obtain rfl | hmore : quantity = 1 ∨ 1 < quantity := by omega
  · rw [if_pos le_rfl, if_neg (by simp), Nat.cast_one, Int.ediv_one]
  · rw [if_neg (by omega)]
    refine if_congr (and_iff_right (by omega)) rfl rfl

/-- The activations of an order cost together what the order costs. -/
theorem sum_quotaForSlot :
    ((List.range quantity).map fun slot => quotaForSlot total quantity (slot + 1)).sum = total := by
  have hpos : (0 : ℤ) < quantity := by omega
  simp only [quotaForSlot_eq htot hqua]
  rw [sum_remainder _ _ (Int.emod_nonneg total hpos.ne'),
    min_eq_right (Int.emod_lt_of_pos total hpos).le, Int.mul_ediv_add_emod]

theorem quotaForSlot_nonneg (slot : ℕ) : 0 ≤ quotaForSlot total quantity (slot + 1) := by
  have hbase : 0 ≤ total / quantity := Int.ediv_nonneg htot (by omega)
  rw [quotaForSlot_eq htot hqua]
  split <;> omega

end

theorem priced_spec {r : Request} {products : List Product}
    (h : priced db r products = some p) (hcost : 0 ≤ r.quotedCost) :
    0 ≤ p.chargeQuota ∧ p.quantity = r.quantity := by
  simp only [priced, bind_eq_bind, bind_eq_some_iff, toOption_eq_some,
    guard_eq_some', Option.pure_def, some.injEq] at h
  obtain ⟨_, -, _, hequ, _, -, multiplier, -, _, hch, rfl⟩ := h
  refine ⟨Settings.chargeQuota_nonneg hch ?_, rfl⟩
  rw [hequ]
  exact mul_nonneg (mul_nonneg hcost multiplier.2) (Nat.cast_nonneg _)

theorem reserve_row {o : Order} {slots : List Activation} {out : ℕ × Db}
    (h : db.reserve o slots = .ok out) :
    out.1 = db.orders.table.next ∧ out.2.orders.table = db.orders.table.insert o := by
  simp only [reserve, eq_ok] at h
  obtain ⟨_, -, -, _, -, _, hos, _, -, _, -, rfl⟩ := h
  exact ⟨rfl, (insert?_eq_some hos).2⟩

theorem reserve_writes {now : ℤ} {ids : List String} {out : ℕ × Db}
    {keep : ℕ → Prop} {whole : Prop} (hch : 0 ≤ p.chargeQuota) (hqua : 1 ≤ p.quantity)
    (h : db.reserve (p.order now ids) (p.slots now) = .ok out) :
    Writes keep whole db.orders.table.next db out.2 := by
  have hr := (reserve_row h).2
  simp only [reserve, eq_ok, updateWalletQuotaByDelta_eq_ok] at h
  obtain ⟨_, -, -, _, ⟨-, u, hu, -, -, rfl⟩, _, -, _, has, _,
    hled, rfl⟩ := h
  refine .single (.reserve (p.order now ids) _ rfl hr has (fun a ha => ?_) ?_ rfl
    (insert?_eq_some hled).2 u hu rfl)
  · obtain ⟨b, hb, rfl⟩ := List.mem_map.1 ha
    obtain ⟨slot, -, rfl⟩ := List.mem_map.1 hb
    exact ⟨rfl, quotaForSlot_nonneg hch hqua slot, rfl, rfl⟩
  · rw [List.map_map, Purchase.slots, List.map_map]
    exact sum_quotaForSlot hch hqua

/-! ## Instructions -/

/-- How an instruction stands to the lease of the provider. -/
inductive Kind
  | free
  | acquires
  | held
  | release
  deriving DecidableEq

def Instr.kind : Instr → Kind
  | acquire _ | reconcileOrder .. => .acquires
  | snapshot _ | reserve .. | markStarted .. | purchase .. | mismatch .. | deleteBatch ..
  | deleteItem .. | finalize .. | resolve .. | detail .. | prepare .. | commit .. | mark .. | fail ..
  | unknownOrder .. | listUnknown .. | deleteCandidates .. | details .. => .held
  | release => .release
  | _ => .free

/-- Under the lease one instruction comes after the other, and only the instructions that acquire
the lease lead to one under it, with the release behind it. -/
def Instr.Leads (i : Instr) (next : List Instr) : Prop :=
  match i.kind with
  | .held => next = [] ∨ ∃ j, next = [j] ∧ j.kind = .held
  | .acquires => next = [] ∨ ∃ j rest, next = j :: .release :: rest ∧ j.kind = .held ∧
    ∀ k ∈ rest, k.kind = .free
  | .free | .release => ∀ j ∈ next, j.kind = .free ∨ j.kind = .acquires

/-- The order that is about to be bought. -/
def Instr.purchasing : Instr → Option ℕ
  | markStarted id _ _ | purchase id _ _ => some id
  | _ => none

/-- What is known of the rows that a process has read. -/
def Instr.Fits (db : Db) : Instr → Prop
  | quote r => 0 ≤ r.quotedCost ∧ 1 ≤ r.quantity
  | acquire p | snapshot p | reserve p _ => 0 ≤ p.chargeQuota ∧ 1 ≤ p.quantity
  | markStarted id _ _ => ∃ o, db.orders.get? id = some o
  | purchase id _ _ => ∃ o, db.orders.get? id = some o ∧ o.status ≠ .pendingProvider
  | resolve id _ acts _ _ | detail id _ acts _ _ =>
    ∀ r ∈ acts, Snapshot db r.1 r.2 ∧ r.2.orderId = id
  | prepare id _ todo prepared =>
    (∀ x ∈ todo, Snapshot db x.1.1 x.1.2 ∧ x.1.2.orderId = id) ∧ ∀ slot ∈ prepared, Ready db id slot
  | commit id prepared => ∀ slot ∈ prepared, Ready db id slot
  | mark _ status _ _ => status ≠ .pendingProvider
  | lookup aid a | getEmail aid a | persist aid a _ | deleteActivation aid a => Snapshot db aid a
  | claimCancel _ aid orderId | deleteCancelled _ aid orderId | confirmCancel _ aid orderId
  | compensate aid orderId => Belongs db aid orderId
  | _ => True

/-- The order that an instruction may write. -/
def Instr.order (db : Db) : Instr → Option ℕ
  | reserve .. => some db.orders.table.next
  | markStarted id _ _ | mismatch id _ | commit id _ | mark id _ _ _ | fail id _ | touchOrder id => some id
  | persist _ a _ => some a.orderId
  | claimCancel _ _ orderId | confirmCancel _ _ orderId | compensate _ orderId => some orderId
  | touchActivation aid => some ((db.activations.get? aid).elim 0 Activation.orderId)
  | _ => none

/-- The instruction leaves the activation completed if it is. -/
def Instr.Keeps (db : Db) (aid : ℕ) : Instr → Prop
  | persist aid' a r => aid' = aid → ∀ o ∈ db.orders.get? a.orderId,
    (Db.outcome o.reservedUnitCost r).1 = .completed
  | commit _ prepared => ∀ slot ∈ prepared, slot.1 = aid → slot.2.status = .completed
  | _ => True

instance (db : Db) (aid : ℕ) (i : Instr) : Decidable (i.Keeps db aid) := by
  unfold Instr.Keeps
  split <;> infer_instance

/-- The instruction may refund a whole order. -/
def Instr.isFail : Instr → Prop
  | fail .. => True
  | _ => False

/-- The instruction may create an order. -/
def Instr.isReserve : Instr → Prop
  | reserve .. => True
  | _ => False

theorem Instr.Fits.mono {db db' : Db} {i : Instr} (h : i.Fits db) (hgr : Grows db db') :
    i.Fits db' := by
  cases i with
  | markStarted id =>
    obtain ⟨o, ho⟩ := h
    obtain ⟨o', ho', -⟩ := hgr.orders id o ho
    exact ⟨o', ho'⟩
  | purchase id =>
    obtain ⟨o, ho, hst⟩ := h
    obtain ⟨o', ho', -, -, hst'⟩ := hgr.orders id o ho
    exact ⟨o', ho', fun hp => hst (hst' hp)⟩
  | resolve | detail => exact fun r hr => ⟨(h r hr).1.mono hgr, (h r hr).2⟩
  | prepare =>
    exact ⟨fun x hx => ⟨(h.1 x hx).1.mono hgr, (h.1 x hx).2⟩, fun s hs => (h.2 s hs).mono hgr⟩
  | commit => exact fun s hs => (h s hs).mono hgr
  | lookup | getEmail | persist | deleteActivation => exact Snapshot.mono h hgr
  | claimCancel | deleteCancelled | confirmCancel | compensate => exact Belongs.mono h hgr
  | _ => exact h

/-- What an instruction in `db` may leave to do in `db'`. -/
structure Next (db db' : Db) (i : Instr) (next : List Instr) : Prop where
  fits : ∀ j ∈ next, j.Fits db'
  leads : i.Leads next
  purchasing : ∀ j ∈ next, ∀ id, j.purchasing = some id →
    i.purchasing = some id ∨ i.isReserve ∧ id = db.orders.table.next

/-- What an instruction does. -/
structure Does (db : Db) (i : Instr) (e : Effect Db Unit Instr) : Prop where
  shared : e.shared = db ∨
    ∃ id, i.order db = some id ∧ Writes (fun aid => i.Keeps db aid) i.isFail id db e.shared
  next : Next db e.shared i e.next
  spawned : e.spawned = []

variable {db db' : Db} {id aid : ℕ} {o : Order} {i j : Instr} {e : Effect Db Unit Instr}
  {next : List Instr} {a : Answer}

theorem Next.nil : Next db db' i [] where
  fits := by simp
  leads := by
    unfold Instr.Leads
    split
    · exact .inl rfl
    · exact .inl rfl
    · simp
    · simp
  purchasing := by simp

/-- One instruction under the lease comes after another. -/
theorem Next.held (hft : j.Fits db') (hi : i.kind = .held := by rfl) (hj : j.kind = .held := by rfl)
    (hp : j.purchasing = none := by rfl) : Next db db' i [j] where
  fits := by simpa using hft
  leads := by
    rw [Instr.Leads, hi]
    exact .inr ⟨j, rfl, hj⟩
  purchasing := by simp [hp]

theorem Instr.purchasing_of_kind (h : i.kind ≠ .held) : i.purchasing = none := by
  cases i <;> first | rfl | exact absurd rfl h

/-- What a process does without the lease. -/
theorem Next.free (hi : i.kind = .free) (hn : ∀ j ∈ next, j.Fits db' ∧ (j.kind = .free ∨ j.kind = .acquires)) :
    Next db db' i next where
  fits j hj := (hn j hj).1
  leads := by
    rw [Instr.Leads, hi]
    exact fun j hj => (hn j hj).2
  purchasing j hj id hid := by
    have hno : j.purchasing = none := by
      refine Instr.purchasing_of_kind ?_
      rcases (hn j hj).2 with h | h <;> rw [h] <;> exact nofun
    cases hno.symm.trans hid

theorem Next.freeOne (hft : j.Fits db') (hi : i.kind = .free := by rfl)
    (hj : j.kind = .free := by rfl) : Next db db' i [j] :=
  .free hi (by simpa using ⟨hft, .inl hj⟩)

theorem Does.read (hn : Next db db i next) : Does db i ⟨db, next, []⟩ := ⟨.inl rfl, hn, rfl⟩

theorem Does.write (hws : Writes (fun aid => i.Keeps db aid) i.isFail id db db')
    (hn : Next db db' i next := by exact .nil) (hid : i.order db = some id := by rfl) :
    Does db i ⟨db', next, []⟩ :=
  ⟨.inr ⟨id, hid, hws⟩, hn, rfl⟩

/-! ## What an instruction does -/

theorem mem_activationsOf {r : ℕ × Activation} (h : r ∈ db.activationsOf id) :
    db.activations.get? r.1 = some r.2 ∧ r.2.orderId = id := by
  rw [activationsOf, mem_insertionSort, mem_filter, decide_eq_true_eq] at h
  exact ⟨exists_get?_of_mem h.1, h.2⟩

theorem Snapshot.of_get? {a : Activation} (h : db.activations.get? aid = some a) : Snapshot db aid a :=
  ⟨a, h, rfl, rfl⟩

theorem prepareSlot_spec (o : Order) (x : Activation) (r : Record) (cancelled : Bool) :
    ((prepareSlot o x r cancelled).refundQuota = 0 ∨
      (prepareSlot o x r cancelled).refundQuota = x.chargeQuota) ∧
    ((prepareSlot o x r cancelled).status = .refunded →
      (prepareSlot o x r cancelled).refundQuota = x.chargeQuota) := by
  unfold prepareSlot
  dsimp only
  split
  · exact ⟨.inl rfl, nofun⟩
  · split
    · refine ⟨.inl rfl, fun h => ?_⟩
      dsimp only at h
      split at h <;> cases h
    · exact ⟨.inr rfl, fun _ => rfl⟩

theorem mem_pendingOrders {limit : ℕ} {r : ℕ × Order} (h : r ∈ db.pendingOrders limit) :
    db.orders.get? r.1 = some r.2 := by
  have hm := mem_of_mem_take h
  rw [mem_insertionSort, mem_filter] at hm
  exact exists_get?_of_mem hm.1

theorem mem_pendingActivations {limit : ℕ} {r : ℕ × Activation}
    (h : r ∈ db.pendingActivations limit) : db.activations.get? r.1 = some r.2 := by
  have hm := mem_of_mem_take h
  rw [mem_insertionSort, mem_filter] at hm
  exact exists_get?_of_mem hm.1

theorem mem_activationOf {user : ℕ} (h : db.activationOf user aid = some x) :
    db.activations.get? aid = some x :=
  (filter_eq_some_iff.1 h).1

theorem purchaseError_next (e : ProviderError) :
    Next db db (.purchase id o provider) [purchaseError id e] := by
  unfold purchaseError pendingReconciliation
  dsimp only
  split
  · exact .held nofun
  · exact .held trivial

theorem reconcile_mem {limit : ℤ} (h : j ∈ reconcile db limit) :
    (∃ r ∈ db.pendingOrders (orderLimit (effectiveLimit limit)), j = .reconcileOrder r.1 r.2) ∨
      ∃ n, j = .reconcileActivations n := by
  unfold reconcile at h
  obtain hj | hj := mem_append.1 h
  · obtain ⟨r, hr, rfl⟩ := List.mem_map.1 hj
    exact .inl ⟨r, hr, rfl⟩
  · split at hj
    · exact .inr ⟨_, mem_singleton.1 hj⟩
    · cases hj

theorem reconcile_next (limit : ℤ) : Next db db (.reconcile limit) (reconcile db limit) := by
  refine .free rfl fun j hj => ?_
  obtain ⟨r, -, rfl⟩ | ⟨_, rfl⟩ := reconcile_mem hj
  · exact ⟨trivial, .inr rfl⟩
  · exact ⟨trivial, .inl rfl⟩

theorem reconcileActivations_next (limit : ℕ) :
    Next db db (.reconcileActivations limit) ((db.pendingActivations limit).flatMap reconcileOne) := by
  refine .free rfl fun j hj => ?_
  obtain ⟨r, hr, hj⟩ := mem_flatMap.1 hj
  have hsna := Snapshot.of_get? (mem_pendingActivations hr)
  unfold reconcileOne at hj
  obtain rfl | hj := mem_cons.1 hj
  · split
    · exact ⟨hsna, .inl rfl⟩
    · exact ⟨hsna, .inl rfl⟩
  · rw [mem_singleton.1 hj]
    exact ⟨trivial, .inl rfl⟩

/-- **What an instruction does**, if the rows that its process has read are as they should be. -/
theorem sem_does (env : Env) (h : sem env i a db = some e) (hft : i.Fits db)
    (htidy : ∀ aid x, db.activations.get? aid = some x →
      x.refundQuota = 0 ∨ x.refundQuota = x.chargeQuota) : Does db i e := by
  cases sem_leaves h with
  | stop => exact .read .nil
  | create _ hcost hqua =>
    exact .read (.free rfl (by simpa [Instr.Fits, Instr.kind] using ⟨hcost, hqua⟩))
  | reorder => exact .read (.freeOne trivial)
  | quote hpri =>
    obtain ⟨hch, hqua⟩ := priced_spec hpri hft.1
    exact .read (.free rfl (by simpa [Instr.Fits, Instr.kind, hqua] using ⟨hch, hft.2⟩))
  | acquire =>
    refine .read ⟨?_, .inr ⟨_, _, rfl, rfl, by simp⟩, by simp [Instr.purchasing]⟩
    simpa [Instr.Fits] using hft
  | reserve p ids hrsv =>
    obtain ⟨rfl, hrow⟩ := reserve_row hrsv
    refine .write (reserve_writes hft.1 hft.2 hrsv) ⟨?_, .inr ⟨_, rfl, rfl⟩, ?_⟩
    · simp only [mem_singleton, forall_eq, Instr.Fits]
      refine ⟨p.order db.unix ids, ?_⟩
      dsimp only at hrow
      rw [UniqueTable.get?, hrow]
      exact get?_insert_self _ _
    · simp [Instr.purchasing, Instr.isReserve]
  | markStarted =>
    obtain ⟨o', ho'⟩ := hft
    refine .write (mark_writes nofun) ⟨?_, .inr ⟨_, rfl, rfl⟩, by simp [Instr.purchasing]⟩
    simp only [mem_singleton, forall_eq, Instr.Fits]
    exact ⟨_, get?_modify_eq_some ho', nofun⟩
  | purchaseError => exact .read (purchaseError_next _)
  | mismatch => exact .write (mark_writes nofun) (.held trivial)
  | notStarted | purchase | purchaseMismatch | deleteBatch | deleteFound | batchDeleted | deleteItem
  | intentAborted | unknownOrder | listed | listedMismatch | deleteCandidates | candidatesDeleted
  | details | detailed => exact .read (.held trivial)
  | finalize =>
    refine .read (.held (fun r hr => ?_))
    obtain ⟨hg, hid⟩ := mem_activationsOf hr
    exact ⟨.of_get? hg, hid⟩
  | snapshot | resolve | resolveFound | detail => exact .read (.held hft)
  | resolveFailed | detailFailed | prepareFailed | commitFailed =>
    exact .read (.held nofun)
  | resolved =>
    refine .read (.held ⟨fun x hx => ?_, by simp⟩)
    obtain ⟨y, hy, rfl⟩ := List.mem_map.1 hx
    exact hft y.1 (fst_mem_of_mem_zipIdx hy)
  | prepare x hitem =>
    obtain ⟨htodo, hpre⟩ := hft
    obtain ⟨⟨a, ha, hord, hch⟩, hid⟩ := htodo x mem_cons_self
    refine .read (.held ⟨fun y hy => htodo y (mem_cons_of_mem x hy), fun slot hslot => ?_⟩)
    obtain hslot | hslot := mem_append.1 hslot
    · exact hpre slot hslot
    · rw [mem_singleton.1 hslot]
      obtain rfl | ⟨r, cancelled, rfl⟩ := hitem
      · exact ⟨a, ha, hord.trans hid, .inl rfl, nofun⟩
      · refine ⟨a, ha, hord.trans hid, ?_⟩
        rw [hch]
        exact prepareSlot_spec _ x.1.2 r cancelled
  | prepared => exact .read (.held hft.2)
  | commit hfin =>
    exact .write (finalize_writes hft (fun slot hslot hk => hk slot hslot rfl) hfin)
  | mark => exact .write (mark_writes hft)
  | fail hfl =>
    obtain rfl | ⟨hws, -⟩ := fail_writes hfl
    · exact .read .nil
    · exact .write hws
  | refresh hx | refreshKnown _ hx =>
    exact .read (.freeOne (Snapshot.of_get? (mem_activationOf hx)))
  | lookup | getEmail | deleteCancelled => exact .read (.freeOne hft)
  | persist hper => exact .write (persist_writes hft (fun hk => hk rfl) hper)
  | cancel x hx => exact .read (.freeOne ⟨x, mem_activationOf hx, rfl⟩)
  | claimCancel hcla =>
    have hws : Writes (fun _ => True) False _ db _ := claimCancel_writes hft hcla
    refine .write hws ?_
    split
    · exact .nil
    · exact .freeOne (Belongs.mono hft hws.grows)
  | confirmCancel hcan => exact .write (confirmCancel_writes hft hcan)
  | reconcile => exact .read (reconcile_next _)
  | reconcileOrder =>
    exact .read ⟨by simp [Instr.Fits], .inr ⟨_, _, rfl, rfl, by simp [Instr.kind]⟩,
      by simp [Instr.purchasing]⟩
  | touchOrder => exact .write touchOrder_writes
  | reconcileActivations => exact .read (reconcileActivations_next _)
  | deleteActivation =>
    obtain ⟨x', hx', hord, -⟩ := hft
    exact .read (.freeOne ⟨x', hx', hord⟩)
  | compensate hcom => exact .write (compensate_writes hft (htidy _) hcom)
  | touchActivation => exact .write touchActivation_writes

end LmmApi.HeroSms.Email
