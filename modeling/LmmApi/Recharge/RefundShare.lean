import LmmApi.Recharge.CreditOnce
import LmmApi.Recharge.Refund

/-!
# Refunds of a top-up are proportional

The refunds of an order are kept in a book: the events that were accepted and their sum. An event is
accepted if it is new and keeps the sum at most the amount paid. `Booked` says that the order, the
ledger and the book agree, and `Booked.accepted` and `Booked.refused` that a call of
`applyTopUpRefund` does what the book does. Along a run the wallet is then debited the rounded share
of the sum, however it was split.

The share is rounded once as long as the quotients by the amount paid are `Accurate`. A single event
is at most `9 * 10 ^ 15` millionths, the greatest amount of a ledger row.
-/

namespace LmmApi.Recharge

open Guarded Go Attribution List Option Table TopUp

/-! ## The book -/

/-- The id and the amount of an event. -/
structure RefundEvent where
  id : String
  amountMicros : ℤ

/-- The events of an order that were accepted, and the sum of their amounts. -/
structure Book where
  applied : List String
  total : ℤ
  deriving DecidableEq

namespace Book

variable {b : Book} {paid : ℤ} {e : RefundEvent}

/-- The event is new, fits the ledger, and keeps the sum at most the amount paid. -/
def Accepts (b : Book) (paid : ℤ) (e : RefundEvent) : Prop :=
  e.id ∉ b.applied ∧ e.amountMicros ≤ maxLedgerMicros ∧ b.total + e.amountMicros ≤ paid
  deriving Decidable

/-- The book after an event. -/
def post (paid : ℤ) (b : Book) (e : RefundEvent) : Book :=
  if b.Accepts paid e then ⟨e.id :: b.applied, b.total + e.amountMicros⟩ else b

/-- The book of a list of events. -/
def of (paid : ℤ) (events : List RefundEvent) : Book := events.foldl (post paid) ⟨[], 0⟩

theorem post_of_not_accepts (h : ¬b.Accepts paid e) : b.post paid e = b := if_neg h

end Book

/-! ## Runs -/

/-- A call of `applyTopUpRefund`, or something that others do. -/
inductive RefundStep
  | refund (env : Env) (call : RefundCall)
  | other (db : Db)

namespace RefundStep

def exec : RefundStep → Db → Db
  | .refund env call, db => commit (applyTopUpRefund env call db) db
  | .other db', _ => db'

/-- The event that a call is about. -/
def event? : RefundStep → Option RefundEvent
  | .refund _ call => some ⟨call.trimmed.providerEventId, call.amountMicros⟩
  | .other _ => none

def IsRefund : RefundStep → Prop
  | .refund _ _ => True
  | .other _ => False

instance : DecidablePred IsRefund
  | .refund _ _ => inferInstanceAs (Decidable True)
  | .other _ => inferInstanceAs (Decidable False)

end RefundStep

/-- The quotients by the amount paid are accurate when the call is made. -/
def RefundStep.Divides (paid : ℤ) : RefundStep → Prop
  | .refund env _ => Accurate env.div paid
  | .other _ => True

/-- The idempotency key of an event of a provider. -/
def refundKey (provider event : String) : String := s!"{provider}:refund:{event}"

/-- The ledger has a row for an event of the provider. -/
def Db.Recorded (db : Db) (provider event : String) : Prop :=
  db.ledger.Any fun _ l => l.idempotencyKey = refundKey provider event
  deriving Decidable

/-- A well-formed request for a refund of the order, in its provider's name. -/
@[mk_iff]
structure RefundCall.For (r : RefundCall) (t : TopUp) : Prop where
  tradeNo : r.trimmed.tradeNo = t.tradeNo
  tradeNo_ne : t.tradeNo ≠ ""
  provider : r.trimmed.paymentProvider = t.paymentProvider
  provider_ne : t.paymentProvider ≠ ""
  event_ne : r.trimmed.providerEventId ≠ ""
  amount : 0 < r.amountMicros
  actor : 0 < r.actorId

instance (r : RefundCall) (t : TopUp) : Decidable (r.For t) := decidable_of_iff' _ (RefundCall.for_iff ..)

section

variable (t : TopUp) (quota : ℤ) (events : List String)

/-- The wallet of the user is in range and covers the debit. -/
def WalletCovers (env : Env) (db : Db) (amountMicros : ℤ) : Prop :=
  ∃ u ∈ db.users.get? t.userId, u.deleted = false ∧ u.quota ≤ maxWalletQuota ∧
    ∀ x ∈ db.findTopUp t.tradeNo, proportionalRefundDelta env.div quota t.paidMicros
      x.2.refundedQuota x.2.refundedAmountMicros amountMicros ≤ u.quota
  deriving Decidable

/-- The steps in question. The calls are about the listed events, the ledger takes their rows, and
the order is one of a top-up; others leave the order and the rows of the events alone. -/
def RefundStep.Admissible : RefundStep → Db → Prop
  | .refund env call, db =>
    call.For t ∧ call.trimmed.providerEventId ∈ events ∧
      normalizedTopUpCreditedQuota env t = quota ∧
      ¬(t.paymentProvider = paymentProviderWaffoPancake ∧ t.tradeNo ∈ db.subscriptionTradeNos) ∧
      (call.amountMicros ≤ maxLedgerMicros →
        (call.trimmed.ledgerEntry t.userId env.now).trimmed.Valid) ∧
      WalletCovers t quota env db call.amountMicros
  | .other db', db =>
    db'.findTopUp t.tradeNo = db.findTopUp t.tradeNo ∧
      ∀ event ∈ events, db'.Recorded t.paymentProvider event ↔ db.Recorded t.paymentProvider event

instance : ∀ i db, Decidable (RefundStep.Admissible t quota events i db)
  | .refund _ _, _ => inferInstanceAs (Decidable (_ ∧ _ ∧ _ ∧ _ ∧ (_ → _) ∧ _))
  | .other _, _ => inferInstanceAs (Decidable (_ ∧ _))

/-- The order with refunds of `total`. -/
def TopUp.withRefunds (total : ℤ) : TopUp :=
  { t with
    refundedAmountMicros := total
    refundedQuota := refundShare quota t.paidMicros total }

/-- What a refund of `amount` takes back after refunds of `total`. -/
def TopUp.refundStep (total amount : ℤ) : ℤ :=
  refundShare quota t.paidMicros (total + amount) - refundShare quota t.paidMicros total

/-- The order `t` has the refunds of the book, and the ledger has their events. -/
structure Booked (id : ℕ) (b : Book) (db : Db) : Prop where
  order : db.findTopUp t.tradeNo = some (id, t.withRefunds quota b.total)
  nonneg : 0 ≤ b.total
  le_paid : b.total ≤ t.paidMicros
  pos : b.applied ≠ [] → 0 < b.total
  recorded : ∀ event ∈ events, db.Recorded t.paymentProvider event ↔ event ∈ b.applied

end

namespace TopUp

variable (t : TopUp) (quota total : ℤ)

@[simp]
theorem withRefunds_userId : (t.withRefunds quota total).userId = t.userId := rfl

@[simp]
theorem withRefunds_paidMicros : (t.withRefunds quota total).paidMicros = t.paidMicros := rfl

@[simp]
theorem withRefunds_refundedAmountMicros :
    (t.withRefunds quota total).refundedAmountMicros = total := rfl

@[simp]
theorem withRefunds_refundedQuota : (t.withRefunds quota total).refundedQuota =
    refundShare quota t.paidMicros total := rfl

@[simp]
theorem withRefunds_creditedQuota (env : Env) :
    normalizedTopUpCreditedQuota env (t.withRefunds quota total) =
      normalizedTopUpCreditedQuota env t := rfl

end TopUp

variable {env : Env} {db db' : Db} {id : ℕ} {t : TopUp} {quota : ℤ} {events : List String} {b : Book}
  {call r : RefundCall}

/-! ## One call -/

theorem RefundCall.recorded_isSome {ledger : Table LedgerEntry} :
    (r.recorded ledger).isSome ↔ ledger.Any fun _ l => l.idempotencyKey = r.key := by
  rw [recorded, isSome_map, isSome_iff_exists, any_iff]
  constructor
  · rintro ⟨x, hx⟩
    exact ⟨x.1, x.2, first?_eq_some hx⟩
  · rintro ⟨i, l, hl, hk⟩
    cases hfst : ledger.first? fun _ l => l.idempotencyKey = r.key with
    | none => exact absurd hk (first?_eq_none hfst hl)
    | some x => exact ⟨x, rfl⟩

theorem RefundCall.For.recorded_iff (h : call.For t) : (call.trimmed.recorded db.ledger).isSome ↔
      db.Recorded t.paymentProvider call.trimmed.providerEventId := by
  rw [RefundCall.recorded_isSome, Db.Recorded, refundKey, ← h.provider]
  rfl

/-- The debit of a wallet that covers it. -/
theorem debitRefund_of_covers {u : User} {user : ℕ} {debit : ℤ} (hg : db.users.get? user = some u)
    (hlv : u.deleted = false) (hmax : u.quota ≤ maxWalletQuota) (hcov : debit ≤ u.quota)
    (hnn : 0 ≤ debit) :
    ∃ users, debitRefund db user debit = .ok { db with users } ∧
      walletOf users user = walletOf db.users user - debit := by
  by_cases hpos : 0 < debit
  · refine ⟨db.users.modify user (User.addQuota (-debit)), ?_, ?_⟩
    · have hbou : minWalletQuota + maxWalletQuota = 0 := by decide
      have hupd : updateWalletQuotaByDelta db.users user
          (fun u => u.deleted = false ∧ debit ≤ u.quota) (-debit) Failure.refundAmountInvalid
          .refundWalletQuotaInsufficient =
          .ok (db.users.modify user (User.addQuota (-debit))) := by
        refine updateWalletQuotaByDelta_eq_ok.2 ⟨⟨by omega, by omega⟩, u, hg, ⟨hlv, hcov⟩, ?_, rfl⟩
        refine ⟨?_, ?_⟩
        · rw [if_pos (by omega)]
          omega
        · rw [if_neg (by omega)]
          exact hmax
      rw [debitRefund, if_pos hpos, require_of (hcov.trans hmax), ok_bind, hupd]
      rfl
    · rw [walletOf_addQuota hg, if_pos rfl]
      ring
  · refine ⟨db.users, ?_, by omega⟩
    rw [debitRefund, if_neg hpos]
    rfl

/-- A settled order of a quota, for which something was paid. -/
structure Settled (t : TopUp) (quota : ℤ) : Prop where
  status : t.status = .success
  quota_lt : quota < 2 ^ 63
  quota : 0 ≤ quota
  paid : 0 < t.paidMicros

open RefundStep

namespace Booked

section

variable (h : Booked t quota events id b db)
include h

/-- A row for one event is added to the ledger. -/
theorem recorded_insert {event : String} {entry : LedgerEntry}
    (hk : entry.idempotencyKey = refundKey t.paymentProvider event)
    (hled : db'.ledger = db.ledger.insert entry) :
    ∀ e ∈ events, db'.Recorded t.paymentProvider e ↔ e ∈ event :: b.applied := by
  intro e he
  rw [mem_cons, ← h.recorded e he]
  simp only [Db.Recorded, any_iff, hled]
  constructor
  · rintro ⟨i, l, hl, hlkey⟩
    rcases get?_insert_cases hl with ⟨-, rfl⟩ | hl
    · exact .inl ((String.append_right_inj _).1 (hlkey.symm.trans hk))
    · exact .inr ⟨i, l, hl, hlkey⟩
  · rintro (rfl | ⟨i, l, hl, hlkey⟩)
    · exact ⟨_, entry, get?_insert_self _ _, hk⟩
    · exact ⟨i, l, get?_insert_of_get? hl, hlkey⟩

/-- The debit of a refund that keeps the sum at most the amount paid. -/
theorem refundTopUp_eq (hset : Settled t quota) (hdiv : Accurate env.div t.paidMicros) {amount : ℤ}
    (hamt : 0 < amount) (hle : b.total + amount ≤ t.paidMicros)
    (hquo : normalizedTopUpCreditedQuota env t = quota) (hcov : WalletCovers t quota env db amount) :
    ∃ users, refundTopUp env id (t.withRefunds quota b.total) amount db =
        .ok (t.refundStep quota b.total amount, { db with
          users
          topUps := db.topUps.modify id fun _ => t.withRefunds quota (b.total + amount) }) ∧
      walletOf users t.userId = walletOf db.users t.userId - t.refundStep quota b.total amount := by
  obtain ⟨u, hg, hlv, hmax, hcov⟩ := hcov
  have hdel : proportionalRefundDelta env.div quota t.paidMicros
      (refundShare quota t.paidMicros b.total) b.total amount = t.refundStep quota b.total amount :=
    proportionalRefundDelta_eq hdiv hset.paid hset.quota hset.quota_lt h.nonneg hamt hle
  have hnn : 0 ≤ t.refundStep quota b.total amount := by
    have hmono := refundShare_mono hset.quota hset.paid (show b.total ≤ b.total + amount by omega)
    rw [refundStep]
    omega
  have hdeb := hcov _ h.order
  simp only [withRefunds_refundedQuota, withRefunds_refundedAmountMicros, hdel] at hdeb
  obtain ⟨users, hrun, hwal⟩ := debitRefund_of_covers hg hlv hmax hdeb hnn
  refine ⟨users, ?_, hwal⟩
  generalize hr : t.withRefunds quota b.total = row
  have hrem : 0 < row.paidMicros → ¬row.paidMicros - row.refundedAmountMicros < 0 ∧
      ¬row.paidMicros - row.refundedAmountMicros < amount := by
    subst hr
    exact fun _ => ⟨not_lt.2 (sub_nonneg.2 h.le_paid), not_lt.2 (le_sub_iff_add_le'.2 hle)⟩
  have hquota_add : refundShare quota t.paidMicros b.total + t.refundStep quota b.total amount =
      refundShare quota t.paidMicros (b.total + amount) := by
    rw [refundStep]
    omega
  have hdebi : (if 0 < t.refundStep quota b.total amount then t.refundStep quota b.total amount
      else 0) = t.refundStep quota b.total amount := by
    split
    · rfl
    · omega
  simp only [refundTopUp, require_of hrem, ok_bind]
  subst hr
  simp only [withRefunds_paidMicros, withRefunds_refundedAmountMicros,
    withRefunds_refundedQuota, withRefunds_creditedQuota, withRefunds_userId, hquo,
    hdel, hrun, ok_bind, hquota_add, hdebi]
  rfl

/-- **An accepted event** is booked, and the wallet is debited the rest of the share. -/
theorem accepted (hset : Settled t quota) (hdiv : Accurate env.div t.paidMicros)
    (hok : (refund env call).Admissible t quota events db)
    (hacc : b.Accepts t.paidMicros ⟨call.trimmed.providerEventId, call.amountMicros⟩) :
    ∃ db', applyTopUpRefund env call db =
        .ok (⟨t.userId, t.refundStep quota b.total call.amountMicros, true⟩, db') ∧
      Booked t quota events id ⟨call.trimmed.providerEventId :: b.applied,
        b.total + call.amountMicros⟩ db' ∧
      walletOf db'.users t.userId =
        walletOf db.users t.userId - t.refundStep quota b.total call.amountMicros := by
  obtain ⟨hfor, hev, hquo, hwaf, hval, hcov⟩ := hok
  obtain ⟨hnew, hmic, hle⟩ := hacc
  have hcp : call.trimmed.Complete :=
    ⟨hfor.tradeNo ▸ hfor.tradeNo_ne, hfor.amount, hfor.event_ne, hfor.provider ▸ hfor.provider_ne,
      hfor.actor, hmic⟩
  have hn : call.trimmed.recorded db.ledger = none := by
    rw [← not_isSome_iff_eq_none, hfor.recorded_iff, h.recorded _ hev]
    exact hnew
  have hbook : call.trimmed.book t.userId env.now db.ledger =
      some (db.ledger.insert (call.trimmed.ledgerEntry t.userId env.now).trimmed) := by
    rw [RefundCall.book, hn, normalizeFinanceEntry, if_pos (hval hmic)]
    rfl
  have hamt : call.trimmed.appliedAmount db.ledger = call.amountMicros := by
    rw [RefundCall.appliedAmount, hn]
    rfl
  have hwaf : ¬(call.trimmed.paymentProvider = paymentProviderWaffoPancake ∧
      t.tradeNo ∈ db.subscriptionTradeNos) := by
    rwa [hfor.provider]
  have hsucc : (t.withRefunds quota b.total).status = .success ∧
      (t.withRefunds quota b.total).paymentProvider = call.trimmed.paymentProvider :=
    ⟨hset.status, hfor.provider.symm⟩
  have hbin : ∀ l ∈ call.trimmed.recorded db.ledger,
      call.trimmed.Binds (t.withRefunds quota b.total).userId l := by
    rw [hn]
    exact fun l hl => nomatch hl
  have hfr : ¬((call.trimmed.recorded db.ledger).isSome = true ∧
      0 < (t.withRefunds quota b.total).refundedAmountMicros) := by
    rw [hn]
    exact fun h => nomatch h.1
  obtain ⟨users, hrun, hwal⟩ := h.refundTopUp_eq hset hdiv hfor.amount hle hquo hcov
  refine ⟨{ db with
    users
    topUps := db.topUps.modify id fun _ => t.withRefunds quota (b.total + call.amountMicros)
    ledger := db.ledger.insert (call.trimmed.ledgerEntry t.userId env.now).trimmed }, ?_, ?_, hwal⟩
  · unfold applyTopUpRefund
    simp only []
    rw [require_of hcp, ok_bind, hfor.tradeNo, require_of hwaf, ok_bind, h.order, orFail_some,
      ok_bind]
    simp only [require_of hsucc, ok_bind]
    rw [require_of hbin, ok_bind, if_neg hfr, hamt, hrun, ok_bind]
    simp only [withRefunds_userId, hbook, orFail_some, ok_bind, hn]
    rfl
  · have htot : 0 < b.total + call.amountMicros := add_pos_of_nonneg_of_pos h.nonneg hfor.amount
    refine ⟨first?_modify h.order rfl, htot.le, hle, fun _ => htot, ?_⟩
    refine h.recorded_insert ?_ rfl
    -- the key of a request is written as it is
    have hpv : trimSpace t.paymentProvider = t.paymentProvider := by
      rw [← hfor.provider]
      exact trimSpace_trimSpace _
    change trimSpace call.trimmed.key = _
    rw [RefundCall.key, hfor.provider]
    exact trimSpace_append _ hpv (trimSpace_trimSpace _) hfor.provider_ne hfor.event_ne

/-- **An event that is not accepted** changes nothing. -/
theorem refused (hok : (refund env call).Admissible t quota events db) (hp : 0 < t.paidMicros)
    (href : ¬b.Accepts t.paidMicros ⟨call.trimmed.providerEventId, call.amountMicros⟩) :
    commit (applyTopUpRefund env call db) db = db := by
  obtain ⟨hfor, hev, -⟩ := hok
  refine commit_rule (P := (· = db)) ?_ rfl
  rintro ⟨result, db'⟩ hrun
  obtain ⟨_, hcp, hrun⟩ := bind_eq_ok.1 hrun
  obtain ⟨-, -, -, -, -, hmic⟩ := require_eq_ok.1 hcp
  obtain ⟨_, hrun⟩ := of_bind hrun
  obtain ⟨⟨i, _⟩, hf, hrun⟩ := bind_eq_ok.1 hrun
  rw [hfor.tradeNo, h.order] at hf
  obtain ⟨⟩ := Except.ok.inj hf
  obtain ⟨_, hrun⟩ := of_bind hrun
  obtain ⟨_, hrun⟩ := of_bind hrun
  split at hrun
  · exact (Prod.mk.inj (pure_eq_ok.1 hrun)).2.symm
  · rename_i hfr
    -- the event is new, since the order has no refunds otherwise, so it exceeds the amount paid
    have hnew : call.trimmed.providerEventId ∉ b.applied := by
      intro hm
      refine hfr ⟨hfor.recorded_iff.2 ((h.recorded _ hev).2 hm), ?_⟩
      exact h.pos (ne_nil_of_mem hm)
    have hamt : call.trimmed.appliedAmount db.ledger = call.amountMicros := by
      have hn : call.trimmed.recorded db.ledger = none := by
        rw [← not_isSome_iff_eq_none, hfor.recorded_iff, h.recorded _ hev]
        exact hnew
      rw [RefundCall.appliedAmount, hn]
      rfl
    obtain ⟨_, hrf, -⟩ := bind_eq_ok.1 hrun
    obtain ⟨_, hrem, -⟩ := bind_eq_ok.1 hrf
    have hle := (require_eq_ok.1 hrem hp).2
    rw [hamt, not_lt, withRefunds_paidMicros, withRefunds_refundedAmountMicros] at hle
    exact absurd ⟨hnew, hmic, le_sub_iff_add_le'.1 hle⟩ href

/-- Others keep the agreement with the book. -/
theorem other (hok : (RefundStep.other db').Admissible t quota events db) :
    Booked t quota events id b db' where
  order := hok.1.trans h.order
  nonneg := h.nonneg
  le_paid := h.le_paid
  pos := h.pos
  recorded := fun event hev => (hok.2 event hev).trans (h.recorded event hev)

/-- What a step does to the book and to the wallet: its own steps debit what the sum of the order
grows by. -/
theorem step (hset : Settled t quota) {i : RefundStep} (hdiv : i.Divides t.paidMicros)
    (hok : i.Admissible t quota events db) :
    Booked t quota events id (i.event?.toList.foldl (Book.post t.paidMicros) b) (i.exec db) ∧
      stepDecrease exec RefundStep.IsRefund (fun db => walletOf db.users t.userId) i db =
        refundShare quota t.paidMicros (i.event?.toList.foldl (Book.post t.paidMicros) b).total -
          refundShare quota t.paidMicros b.total := by
  cases i with
  | refund env call =>
    simp only [event?, toList_some, foldl_cons, foldl_nil, stepDecrease]
    rw [if_pos (show RefundStep.IsRefund (.refund env call) from trivial)]
    by_cases hacc : b.Accepts t.paidMicros ⟨call.trimmed.providerEventId, call.amountMicros⟩
    · obtain ⟨db', hrun, hbk, hwal⟩ := h.accepted hset hdiv hok hacc
      rw [Book.post, if_pos hacc, exec, hrun, commit_ok, hwal, refundStep]
      exact ⟨hbk, by ring⟩
    · rw [Book.post_of_not_accepts hacc, exec, h.refused hok hset.paid hacc]
      exact ⟨h, by ring⟩
  | other db' =>
    simp only [event?, toList_none, foldl_nil, stepDecrease]
    rw [if_neg (show ¬RefundStep.IsRefund (.other db') from not_false)]
    exact ⟨h.other hok, by ring⟩

end

end Booked

/-- **The run lemma**: the order agrees with the book of the events, and the calls debit what the
share of its sum grows by. -/
theorem booked_run (hset : Settled t quota) {steps : List RefundStep}
    (hdiv : ∀ i ∈ steps, i.Divides t.paidMicros) (h : Booked t quota events id b db)
    (hss : Along exec (RefundStep.Admissible t quota events) db steps) :
    Booked t quota events id ((delivered event? steps).foldl (Book.post t.paidMicros) b)
        (run exec db steps) ∧
      decrease exec RefundStep.IsRefund (fun db => walletOf db.users t.userId) db steps =
        refundShare quota t.paidMicros
            ((delivered event? steps).foldl (Book.post t.paidMicros) b).total -
          refundShare quota t.paidMicros b.total := by
  induction steps generalizing db b with
  | nil => exact ⟨h, (sub_self _).symm⟩
  | cons _ _ ih =>
    obtain ⟨hi, hrest⟩ := forall_mem_cons.1 hdiv
    obtain ⟨hn, hdeb⟩ := h.step hset hi hss.1
    obtain ⟨hend, hr⟩ := ih hrest hn hss.2
    rw [delivered_cons, foldl_append, decrease, hdeb, hr]
    exact ⟨hend, by ring⟩

end LmmApi.Recharge
