import LmmApi.Billing.AllOrNothing
import LmmApi.Lib.Attribution

/-!
# A session on a wallet is finalized once

The calls on a session may come in any order. The first one that settles or refunds should decide:
a settlement leaves the wallet and the token at the actual cost, a refund leaves them as they were
before the request, and nothing after it moves either.

`Verdict` is this reading of a list of calls, kept beside the session. It is what the
session does as long as no later call asks for something after a refund: `Settle` of a session on a
wallet does not look at `refunded`, and a refund of a session that has reserved nothing leaves no
trace. `finalizes_once` is the equivalence of the two.
-/

namespace LmmApi.Billing

open Guarded Subscription Attribution Option Session

/-! ## Calls -/

/-- A call on a session, or the run of the refund that one of them has scheduled. -/
inductive Call
  | reserve (targetQuota : ℤ)
  | settle (actualQuota : ℤ)
  | refund
  | refundRuns

/-- What the calls so far decide. -/
inductive Verdict
  | unfinished
  | settled (actualQuota : ℤ)
  | refunded
  deriving DecidableEq

/-- The first settlement or refund decides. -/
def Verdict.next : Verdict → Call → Verdict
  | .unfinished, .settle actualQuota => .settled actualQuota
  | .unfinished, .refund => .refunded
  | verdict, _ => verdict

/-- A session with its tables, the refund it has scheduled, and the verdict on its calls. -/
structure Running where
  session : Session
  db : Db
  refund : Option RefundTask := none
  verdict : Verdict := .unfinished

variable (c : CallEnv × Call) (r : Running)

/-- Run the scheduled refund, if there is one. -/
def Running.runRefund (env : CallEnv) : Option Outcome :=
  match r.refund, r.session.funding with
  | some task, .wallet w => some (task.run env r.session w r.db)
  | _, _ => none

/-- What a call makes of the session, the tables and the scheduled refund. -/
def Running.exec (env : CallEnv) : Call → Running
  | .reserve targetQuota =>
    let out := r.session.reserve env targetQuota r.db
    { r with session := out.session, db := out.db }
  | .settle actualQuota =>
    let out := r.session.settle env actualQuota r.db
    { r with session := out.session, db := out.db }
  | .refund =>
    let (task, session) := r.session.refundWallet
    { r with session, refund := task.or r.refund }
  | .refundRuns =>
    match r.runRefund env with
    | some out => { r with db := out.db, refund := none }
    | none => r

/-- A call, with what it reads. -/
def Running.step : Running :=
  { r.exec c.1 c.2 with verdict := r.verdict.next c.2 }

/-- Every quota update of a call succeeds. Before a refund a reservation may also be refused, as long
as what it has taken is given back. -/
def Succeeds : Prop :=
  match c.2 with
  | .reserve targetQuota =>
    let out := r.session.reserve c.1 targetQuota r.db
    out.logged = [] ∧ (r.verdict = .refunded → out.error = none)
  | .settle actualQuota => 0 ≤ actualQuota ∧ (r.session.settle c.1 actualQuota r.db).error = none
  | .refund => True
  | .refundRuns => (r.runRefund c.1).elim [] Outcome.logged = []

instance (c : CallEnv × Call) (r : Running) : Decidable (Succeeds c r) :=
  match c with
  | (_, .reserve _) => inferInstanceAs (Decidable (_ ∧ (_ → _)))
  | (_, .settle _) => inferInstanceAs (Decidable (_ ∧ _))
  | (_, .refund) => inferInstanceAs (Decidable True)
  | (_, .refundRuns) => inferInstanceAs (Decidable (_ = _))

/-! ## What should hold -/

/-- The wallet of `user`, and the token of the request, after `amount` was taken from both. -/
structure Spent (user : ℕ) (info : RelayInfo) (db db' : Db) (amount : ℤ) : Prop where
  wallet : WalletSpent db.users db'.users user amount
  token : TokenCharged info db.tokens db'.tokens amount

/-- The amount that the verdict charges. -/
def Running.charge : ℤ :=
  match r.verdict with
  | .unfinished => r.session.preConsumedQuota
  | .settled actualQuota => actualQuota
  | .refunded => 0

/-- A call after the verdict leaves the wallet and the token as they are. -/
def SilentAfterVerdict (user : ℕ) (info : RelayInfo) (c : CallEnv × Call) (r : Running) : Prop :=
  r.verdict ≠ .unfinished → c.2 ≠ .refundRuns → Spent user info r.db (r.step c).db 0

/-- A reservation asks for nothing: the session has ended, or has reserved as much. -/
def NotReserved (s : Session) (targetQuota : ℤ) : Prop :=
  s.settled = true ∨ s.refunded = true ∨ targetQuota ≤ s.preConsumedQuota
  deriving Decidable

/-- A call asks for nothing after a refund: it does not settle another amount than the reserved one,
unless the session is settled, and a reservation asks for nothing. -/
def AsksNothing : Prop :=
  r.verdict = .refunded → match c.2 with
    | .settle actualQuota => r.session.settled = true ∨ actualQuota = r.session.preConsumedQuota
    | .reserve targetQuota => NotReserved r.session targetQuota
    | _ => True

instance (c : CallEnv × Call) (r : Running) : Decidable (AsksNothing c r) :=
  match c with
  | (_, .reserve _) => inferInstanceAs (Decidable (_ → NotReserved _ _))
  | (_, .settle _) => inferInstanceAs (Decidable (_ → _ ∨ _))
  | (_, .refund) => inferInstanceAs (Decidable (_ → True))
  | (_, .refundRuns) => inferInstanceAs (Decidable (_ → True))

/-! ## Spending -/

variable {user : ℕ} {info : RelayInfo} {db db' db'' : Db} {a b : ℤ} {env : CallEnv}

theorem Spent.refl (db : Db) : Spent user info db db 0 :=
  ⟨walletSpent_zero _ _, tokenCharged_self (.inr rfl)⟩

theorem Spent.trans (h₁ : Spent user info db db' a) (h₂ : Spent user info db' db'' b) :
    Spent user info db db'' (a + b) :=
  ⟨h₁.wallet.trans h₂.wallet, h₁.token.trans h₂.token⟩

/-- An amount that was taken is determined by the tables. -/
theorem Spent.unique (h₁ : Spent user info db db' a) (h₂ : Spent user info db db' b) : a = b := by
  have h₁ := h₁.wallet user
  have h₂ := h₂.wallet user
  rw [if_pos rfl] at h₁ h₂
  omega

/-! ## What the calls do -/

variable {s : Session} {w : WalletFunding}

/-- What a settlement does when its updates succeed. -/
structure Settled (s : Session) (user : ℕ) (actualQuota : ℤ) (db : Db) (out : Outcome) : Prop where
  session : ∃ f, out.session = { s with fundingSettled := f, settled := true }
  spent : Spent user s.info db out.db
    (if s.settled = true then 0 else actualQuota - s.preConsumedQuota)

variable {delta : ℤ} {refund : Option RefundTask} {c : CallEnv × Call}
  {calls : List (CallEnv × Call)}

theorem settleToken_charged {tokens tokens' : Table Token}
    (h : settleToken env info delta tokens = .ok tokens') :
    TokenCharged info tokens tokens' delta := by
  unfold settleToken at h
  split_ifs at h with hus hpos
  · exact tokenCharged_of_decrease hus h
  · have hcha := tokenCharged_of_increase hus h
    rwa [neg_neg] at hcha
  · obtain rfl := pure_eq_ok.1 h
    exact tokenCharged_self (.inl hus)

variable {actualQuota : ℤ} {targetQuota : ℤ} {verdict : Verdict}

theorem settleWallet_settled (hfu : s.fundingSettled = true → s.settled = true)
    (h : (s.settleWallet env w actualQuota db).error = none) :
    Settled s w.userId actualQuota db (s.settleWallet env w actualQuota db) := by
  unfold settleWallet at h ⊢
  dsimp only at h ⊢
  by_cases hset : s.settled = true
  · rw [if_pos hset]
    refine ⟨⟨s.fundingSettled, ?_⟩, ?_⟩
    · rw [← hset]
    · rw [if_pos hset]
      exact .refl db
  · rw [if_neg hset] at h ⊢
    by_cases hs : actualQuota - s.preConsumedQuota = 0
    · rw [if_pos hs]
      refine ⟨⟨s.fundingSettled, rfl⟩, ?_⟩
      rw [if_neg hset, hs]
      exact .refl db
    · rw [if_neg hs, if_neg fun h => hset (hfu h)] at h ⊢
      cases hwal : w.settle env (actualQuota - s.preConsumedQuota) db.users with
      | error =>
        rw [hwal] at h
        cases h
      | ok =>
        rw [hwal] at h
        dsimp only at h ⊢
        cases htok : settleToken env s.info (actualQuota - s.preConsumedQuota) db.tokens with
        | error =>
          rw [htok] at h
          cases h
        | ok =>
          refine ⟨⟨true, rfl⟩, ?_⟩
          rw [if_neg hset]
          exact ⟨walletFunding_settle hwal, settleToken_charged htok⟩

/-- The session after a reservation of `delta` more. -/
def Session.raised (s : Session) (w : WalletFunding) (delta : ℤ) : Session :=
  { s with
    funding := .wallet { w with consumed := w.consumed + delta }
    preConsumedQuota := s.preConsumedQuota + delta
    tokenConsumed := s.tokenConsumed + delta }

theorem Session.raised_zero (h : s.funding = .wallet w) : s.raised w 0 = s := by
  simp only [Session.raised, add_zero, ← h]

/-- What a reservation does when its updates succeed: it takes `delta` more. -/
structure Reserved (s : Session) (w : WalletFunding) (targetQuota : ℤ) (db : Db) (out : Outcome)
    (delta : ℤ) : Prop where
  nonneg : 0 ≤ delta
  session : out.session = s.raised w delta
  spent : Spent w.userId s.info db out.db delta
  none_iff : delta = 0 ↔ NotReserved s targetQuota ∨ out.error ≠ none

theorem reserveWallet_reserved (hfu : s.funding = .wallet w)
    (h : (s.reserveWallet env w targetQuota db).logged = []) :
    ∃ delta, Reserved s w targetQuota db (s.reserveWallet env w targetQuota db) delta := by
  have hs := raised_zero hfu
  unfold reserveWallet at h ⊢
  dsimp only at h ⊢
  by_cases hidle : s.settled = true ∨ s.refunded = true ∨ targetQuota ≤ s.preConsumedQuota
  · rw [if_pos hidle]
    exact ⟨0, le_rfl, hs.symm, .refl db, iff_of_true rfl (.inl hidle)⟩
  · rw [if_neg hidle] at h ⊢
    cases hwal : decreaseUserQuota env .moveWallet db.users w.userId
        (targetQuota - s.preConsumedQuota) with
    | error e =>
      exact ⟨0, le_rfl, hs.symm, .refl db, iff_of_true rfl (.inr (some_ne_none e))⟩
    | ok users =>
      rw [hwal] at h
      dsimp only at h ⊢
      cases htok : preConsumeTokenQuota env s.info (targetQuota - s.preConsumedQuota)
          db.tokens with
      | error e =>
        rw [htok] at h
        dsimp only at h ⊢
        cases hundo : increaseUserQuota env .undoWallet users w.userId
            (targetQuota - s.preConsumedQuota) with
        | error =>
          rw [hundo] at h
          cases h
        | ok =>
          have hb := (walletSpent_of_decrease hwal).trans (walletSpent_of_increase hundo)
          rw [add_neg_cancel] at hb
          exact ⟨0, le_rfl, hs.symm, ⟨hb, tokenCharged_self (.inr rfl)⟩,
            iff_of_true rfl (.inr (some_ne_none e))⟩
      | ok tokens =>
        have hlt := not_le.1 fun h => hidle (.inr (.inr h))
        refine ⟨targetQuota - s.preConsumedQuota, by omega, rfl,
          ⟨walletSpent_of_decrease hwal, (preConsumeTokenQuota_eq_ok htok).charged⟩, ?_⟩
        exact iff_of_false (by omega) fun h => h.elim hidle fun h => h rfl

/-- A refund that runs gives back what was consumed, on the wallet and on the token. -/
theorem refundTask_run {task : RefundTask} (hpos : 0 < w.consumed)
    (htk : task.tokenConsumed = w.consumed) (h : (task.run env s w db).logged = []) :
    Spent w.userId s.info db (task.run env s w db).db (-w.consumed) := by
  unfold RefundTask.run at h ⊢
  cases hwal : w.refund env db.users with
  | error =>
    rw [hwal] at h
    cases h
  | ok =>
    cases htok : task.refundToken env s.info db.tokens with
    | error =>
      rw [hwal, htok] at h
      cases h
    | ok =>
      refine ⟨?_, ?_⟩
      · rw [WalletFunding.refund, if_neg hpos.not_ge] at hwal
        exact walletSpent_of_increase hwal
      · unfold RefundTask.refundToken at htok
        split_ifs at htok with hus
        · rw [htk] at htok
          exact tokenCharged_of_increase hus.2 htok
        · obtain rfl := pure_eq_ok.1 htok
          refine tokenCharged_self (.inl fun h => hus ⟨?_, h⟩)
          rwa [htk]

/-! ## The invariant -/

variable {db₀ : Db} {r : Running}

/-- How far a session has come, by its verdict and the refund it has scheduled. -/
inductive Phase (db₀ : Db) (user : ℕ) (info : RelayInfo) (s : Session) (db : Db) :
    Option RefundTask → Verdict → Prop
  | unfinished (settled : s.settled = false) (refunded : s.refunded = false)
      (spent : Spent user info db₀ db s.preConsumedQuota) :
      Phase db₀ user info s db none .unfinished
  | settled (actualQuota : ℤ) (settled : s.settled = true)
      (spent : Spent user info db₀ db actualQuota) :
      Phase db₀ user info s db none (.settled actualQuota)
  | scheduled (refunded : s.refunded = true) (pos : 0 < s.preConsumedQuota)
      (spent : Spent user info db₀ db s.preConsumedQuota) :
      Phase db₀ user info s db (some ⟨s.preConsumedQuota⟩) .refunded
  /-- The refund has run, or there was nothing to refund. -/
  | refunded (refunded : s.refunded = true ∨ s.preConsumedQuota = 0)
      (spent : Spent user info db₀ db 0) : Phase db₀ user info s db none .refunded

/-- The invariant of a session that was opened in the tables `db₀`. -/
structure Consistent (db₀ : Db) (user : ℕ) (info : RelayInfo) (r : Running) : Prop where
  wallet : ∃ w, r.session.funding = .wallet w ∧ w.userId = user ∧
    w.consumed = r.session.preConsumedQuota
  request : r.session.info = info
  token : r.session.tokenConsumed = r.session.preConsumedQuota
  nonneg : 0 ≤ r.session.preConsumedQuota
  attempted : r.session.settlementAttempted = false
  funding : r.session.fundingSettled = true → r.session.settled = true
  phase : Phase db₀ user info r.session r.db r.refund r.verdict

theorem preConsumeWallet_consistent {w₀ : WalletFunding} {quota : ℤ} (hw₀ : w₀.consumed = 0)
    (hquo : 0 ≤ quota) (h : preConsumeWallet env info w₀ quota db₀ = (.ok s, db)) :
    Consistent db₀ w₀.userId info ⟨s, db, none, .unfinished⟩ := by
  have hope := preConsumeWallet_opening env info db₀ w₀ hw₀ hquo
  rw [h] at hope
  obtain ⟨w, rfl, hu, hamt⟩ := hope.session
  exact {
    wallet := ⟨w, rfl, hu, hamt⟩
    request := rfl
    token := rfl
    nonneg := hquo
    attempted := rfl
    funding := (fun h => nomatch h)
    phase := .unfinished rfl rfl ⟨hope.wallet, hope.token.charged⟩ }

section

variable (h : Phase db₀ user info s db refund verdict) (hverd : verdict ≠ .unfinished)
include h hverd

/-- A verdict stands in tables with the same balances. -/
theorem Phase.stands {s' : Session}
    (hsp : Spent user info db db' 0) (hres : s'.preConsumedQuota = s.preConsumedQuota)
    (href : s'.refunded = s.refunded) (hset : s.settled = true → s'.settled = true) :
    Phase db₀ user info s' db' refund verdict := by
  have hsum {a : ℤ} (hbef : Spent user info db₀ db a) : Spent user info db₀ db' a := by
    have haft := hbef.trans hsp
    rwa [add_zero] at haft
  cases h with
  | unfinished => exact absurd rfl hverd
  | settled actualQuota settled spent => exact .settled actualQuota (hset settled) (hsum spent)
  | scheduled refunded pos spent =>
    rw [← href] at refunded
    rw [← hres] at pos spent ⊢
    exact .scheduled refunded pos (hsum spent)
  | refunded refunded spent =>
    rw [← href, ← hres] at refunded
    exact .refunded refunded (hsum spent)

/-- A verdict other than a refund has marked the session. -/
theorem Phase.settled_or_refunded : s.settled = true ∨ verdict = .refunded := by
  cases h with
  | unfinished => exact absurd rfl hverd
  | settled _ settled => exact .inl settled
  | scheduled | refunded => exact .inr rfl

end

/-! ## The steps keep it -/

open Running

section

variable (h : Consistent db₀ user info r)
include h

theorem Consistent.reserved (hok : Succeeds (env, .reserve targetQuota) r) :
    ∃ w delta, r.session.funding = .wallet w ∧ w.userId = user ∧
      w.consumed = r.session.preConsumedQuota ∧
      Reserved r.session w targetQuota r.db (r.session.reserve env targetQuota r.db) delta := by
  obtain ⟨w, hfu, hu, hcon⟩ := h.wallet
  have hrsv : r.session.reserve env targetQuota r.db =
      r.session.reserveWallet env w targetQuota r.db := by
    rw [reserve, hfu]
  have hlog : (r.session.reserve env targetQuota r.db).logged = [] := hok.1
  rw [hrsv] at hlog ⊢
  obtain ⟨delta, hres⟩ := reserveWallet_reserved hfu hlog
  exact ⟨w, delta, hfu, hu, hcon, hres⟩

theorem Consistent.settled (hok : Succeeds (env, .settle actualQuota) r) :
    Settled r.session user actualQuota r.db (r.session.settle env actualQuota r.db) := by
  obtain ⟨w, hfu, rfl, -⟩ := h.wallet
  have hset : r.session.settle env actualQuota r.db =
      r.session.settleWallet env w actualQuota r.db := by
    rw [settle, hfu]
  have herr : (r.session.settle env actualQuota r.db).error = none := hok.2
  rw [hset] at herr ⊢
  exact settleWallet_settled h.funding herr

/-- A session with a verdict makes no reservation, if no call asks for one after a refund. -/
theorem Consistent.notReserved (hasks : AsksNothing (env, .reserve targetQuota) r)
    (hverd : r.verdict ≠ .unfinished) : NotReserved r.session targetQuota := by
  rcases h.phase.settled_or_refunded hverd with hset | href
  · exact .inl hset
  · exact hasks href

/-- A session with a verdict settles nothing, if no call asks for it after a refund. -/
theorem Consistent.settles_zero
    (hasks : AsksNothing (env, .settle actualQuota) r) (hverd : r.verdict ≠ .unfinished) :
    (if r.session.settled = true then 0 else actualQuota - r.session.preConsumedQuota) = 0 := by
  have hdone : r.session.settled = true ∨ actualQuota = r.session.preConsumedQuota := by
    rcases h.phase.settled_or_refunded hverd with hset | href
    · exact .inl hset
    · exact hasks href
  split
  · rfl
  · rename_i hop
    have hs := hdone.resolve_left hop
    omega

omit h in
theorem Verdict.next_of_ne (h : verdict ≠ .unfinished) (call : Call) :
    verdict.next call = verdict := by
  cases verdict with
  | unfinished => exact absurd rfl h
  | settled | refunded => rfl

theorem Consistent.step_reserve (hok : Succeeds (env, .reserve targetQuota) r)
    (hasks : AsksNothing (env, .reserve targetQuota) r) :
    Consistent db₀ user info (r.step (env, .reserve targetQuota)) := by
  obtain ⟨w, delta, hfu, rfl, hcon, hres⟩ := h.reserved hok
  have hsp := hres.spent
  have hnn := h.nonneg
  have hdel := hres.nonneg
  rw [h.request] at hsp
  have hph : Phase db₀ w.userId info (r.session.raised w delta)
      (r.session.reserve env targetQuota r.db).db r.refund
      (r.verdict.next (.reserve targetQuota)) := by
    by_cases hverd : r.verdict = .unfinished
    · have hbef := h.phase
      rw [hverd] at hbef ⊢
      generalize r.refund = refund at hbef ⊢
      cases hbef with
      | unfinished settled refunded spent => exact .unfinished settled refunded (spent.trans hsp)
    · have hz := hres.none_iff.2 (.inl (h.notReserved hasks hverd))
      subst hz
      rw [raised_zero hfu, Verdict.next_of_ne hverd]
      exact h.phase.stands hverd hsp rfl rfl id
  simp only [Running.step, exec]
  rw [hres.session]
  refine ⟨⟨_, rfl, rfl, ?_⟩, h.request, ?_, ?_, h.attempted, h.funding, hph⟩
  · simp only [raised, hcon]
  · simp only [raised, h.token]
  · simp only [raised]
    omega

theorem Consistent.step_settle
    (hok : Succeeds (env, .settle actualQuota) r) (hasks : AsksNothing (env, .settle actualQuota) r) :
    Consistent db₀ user info (r.step (env, .settle actualQuota)) := by
  have hset := h.settled hok
  obtain ⟨f, hses⟩ := hset.session
  have hsp := hset.spent
  rw [h.request] at hsp
  have hph : Phase db₀ user info { r.session with fundingSettled := f, settled := true }
      (r.session.settle env actualQuota r.db).db r.refund
      (r.verdict.next (.settle actualQuota)) := by
    by_cases hverd : r.verdict = .unfinished
    · have hbef := h.phase
      rw [hverd] at hbef ⊢
      generalize r.refund = refund at hbef ⊢
      cases hbef with
      | unfinished settled _ spent =>
        rw [settled, if_neg Bool.false_ne_true] at hsp
        have haft := spent.trans hsp
        rw [add_sub_cancel] at haft
        exact .settled actualQuota rfl haft
    · rw [h.settles_zero hasks hverd] at hsp
      rw [Verdict.next_of_ne hverd]
      exact h.phase.stands hverd hsp rfl rfl fun _ => rfl
  simp only [Running.step, exec]
  rw [hses]
  exact ⟨h.wallet, h.request, h.token, h.nonneg, h.attempted, fun _ => rfl, hph⟩

theorem Consistent.needsRefund_iff :
    ¬(r.session.settled = true ∨ r.session.refunded = true ∨ ¬r.session.NeedsRefund) ↔
      r.session.settled = false ∧ r.session.refunded = false ∧ 0 < r.session.preConsumedQuota := by
  have hfu := h.funding
  simp only [Session.NeedsRefund, h.attempted, h.token, not_or, not_not, Bool.not_eq_true]
  constructor
  · rintro ⟨hset, href, -, hpos⟩
    exact ⟨hset, href, hpos⟩
  · rintro ⟨hset, href, hpos⟩
    rw [hset] at hfu
    have hfal := Bool.eq_false_of_not_eq_true fun h => Bool.false_ne_true (hfu h)
    exact ⟨hset, href, ⟨hset, href, hfal, trivial⟩, hpos⟩

theorem Consistent.step_refund : Consistent db₀ user info (r.step (env, .refund)) := by
  have hnee := h.needsRefund_iff
  obtain ⟨s, db, refund, _⟩ := r
  have hbef := h.phase
  have hnn := h.nonneg
  dsimp only at hnee hbef hnn
  simp only [Running.step, exec, refundWallet]
  by_cases hn : s.settled = true ∨ s.refunded = true ∨ ¬s.NeedsRefund
  · rw [if_pos hn]
    refine ⟨h.wallet, h.request, h.token, h.nonneg, h.attempted, h.funding, ?_⟩
    rw [none_or]
    cases hbef with
    | unfinished settled refunded spent =>
      -- Nothing was reserved, so the refund has nothing to do.
      have hz : s.preConsumedQuota = 0 := by
        by_contra hne
        exact hnee.2 ⟨settled, refunded, by omega⟩ hn
      rw [hz] at spent
      exact .refunded (.inr hz) spent
    | settled actualQuota settled spent => exact .settled actualQuota settled spent
    | scheduled refunded pos spent => exact .scheduled refunded pos spent
    | refunded refunded spent => exact .refunded refunded spent
  · rw [if_neg hn]
    obtain ⟨hset, href, hpos⟩ := hnee.1 hn
    refine ⟨h.wallet, h.request, h.token, h.nonneg, h.attempted, h.funding, ?_⟩
    rw [some_or, h.token]
    cases hbef with
    | unfinished _ _ spent => exact .scheduled rfl hpos spent
    | settled _ settled =>
      rw [hset] at settled
      cases settled
    | scheduled refunded =>
      rw [href] at refunded
      cases refunded
    | refunded refunded =>
      rcases refunded with h | h
      · rw [href] at h
        cases h
      · omega

theorem Consistent.step_refundRuns (hok : Succeeds (env, .refundRuns) r) :
    Consistent db₀ user info (r.step (env, .refundRuns)) := by
  obtain ⟨w, hfu, rfl, hcon⟩ := h.wallet
  have hn : r.verdict.next .refundRuns = r.verdict := by
    cases r.verdict <;> rfl
  have hbef := h.phase
  simp only [Running.step, exec, hn]
  simp only [Succeeds, runRefund, hfu] at hok
  simp only [runRefund, hfu]
  cases hrf : r.refund with
  | none => exact h
  | some =>
    rw [hrf] at hok
    refine ⟨⟨w, hfu, rfl, hcon⟩, h.request, h.token, h.nonneg, h.attempted, h.funding, ?_⟩
    rw [hrf] at hbef
    dsimp only
    generalize hverd : r.verdict = verdict at hbef ⊢
    cases hbef with
    | scheduled refunded _ spent =>
      have hsp := refundTask_run (by rwa [hcon]) hcon.symm hok
      rw [h.request, hcon] at hsp
      have haft := spent.trans hsp
      rw [add_neg_cancel] at haft
      exact .refunded (.inl refunded) haft

theorem Consistent.step (hok : Succeeds c r)
    (hasks : AsksNothing c r) : Consistent db₀ user info (r.step c) := by
  obtain ⟨_, call⟩ := c
  cases call with
  | reserve => exact h.step_reserve hok hasks
  | settle => exact h.step_settle hok hasks
  | refund => exact h.step_refund
  | refundRuns => exact h.step_refundRuns hok

/-! ## Finalization -/

/-- A call is silent after the verdict if and only if it asks for nothing after a refund. -/
theorem Consistent.silent_iff
    (hok : Succeeds c r) : SilentAfterVerdict user info c r ↔ AsksNothing c r := by
  have href {v : Verdict} (hv : v = .refunded) : v ≠ .unfinished := by
    rintro rfl
    cases hv
  obtain ⟨_, call⟩ := c
  cases call with
  | reserve =>
    obtain ⟨w, _, -, rfl, -, hres⟩ := h.reserved hok
    have hsp := hres.spent
    rw [h.request] at hsp
    constructor
    · intro hsil hverd
      have hz := hsp.unique (hsil (href hverd) (by simp))
      exact (hres.none_iff.1 hz).resolve_right (not_not.2 (hok.2 hverd))
    · intro hasks hverd _
      rw [hres.none_iff.2 (.inl (h.notReserved hasks hverd))] at hsp
      exact hsp
  | settle actualQuota =>
    have hsp := (h.settled hok).spent
    rw [h.request] at hsp
    constructor
    · intro hsil hverd
      have hz := hsp.unique (hsil (href hverd) (by simp))
      by_cases hset : r.session.settled = true
      · exact .inl hset
      · rw [if_neg hset] at hz
        exact .inr (by omega)
    · intro hasks hverd _
      rw [h.settles_zero hasks hverd] at hsp
      exact hsp
  | refund => exact iff_of_true (fun _ _ => .refl _) fun _ => trivial
  | refundRuns => exact iff_of_true (fun _ hne => absurd rfl hne) fun _ => trivial

theorem Consistent.along_iff (hok : Along Running.step Succeeds r calls) :
    Along Running.step (SilentAfterVerdict user info) r calls ↔
      Along Running.step AsksNothing r calls := by
  induction calls generalizing r with
  | nil => exact Iff.rfl
  | cons _ _ ih =>
    constructor
    · rintro ⟨hsil, hr⟩
      have hasks := (h.silent_iff hok.1).1 hsil
      exact ⟨hasks, (ih (h.step hok.1 hasks) hok.2).1 hr⟩
    · rintro ⟨hasks, hr⟩
      exact ⟨(h.silent_iff hok.1).2 hasks, (ih (h.step hok.1 hasks) hok.2).2 hr⟩

/-- Without a scheduled refund the balances are those of the verdict. -/
theorem Consistent.spent_charge (hdone : r.refund = none) : Spent user info db₀ r.db r.charge := by
  have hph := h.phase
  unfold Running.charge
  rw [hdone] at hph
  generalize r.verdict = verdict at hph ⊢
  cases hph with
  | unfinished _ _ spent => exact spent
  | settled _ _ spent => exact spent
  | refunded _ spent => exact spent

end

/-- **A session is finalized once**, by the first settlement or refund, if and only if no call asks
for anything after a refund. -/
theorem finalizes_once (env₀ : CallEnv) (info : RelayInfo) (w₀ : WalletFunding) (quota : ℤ)
    (db₀ db₁ : Db) (s : Session) (calls : List (CallEnv × Call)) (hw₀ : w₀.consumed = 0)
    (hquota : 0 ≤ quota) (hopen : preConsumeWallet env₀ info w₀ quota db₀ = (.ok s, db₁))
    (hok : Along Running.step Succeeds ⟨s, db₁, none, .unfinished⟩ calls)
    (hdone : (run Running.step ⟨s, db₁, none, .unfinished⟩ calls).refund = none) :
    Spent w₀.userId info db₀ (run Running.step ⟨s, db₁, none, .unfinished⟩ calls).db
        (run Running.step ⟨s, db₁, none, .unfinished⟩ calls).charge ∧
      Along Running.step (SilentAfterVerdict w₀.userId info) ⟨s, db₁, none, .unfinished⟩ calls ↔
    Along Running.step AsksNothing ⟨s, db₁, none, .unfinished⟩ calls := by
  have hstart := preConsumeWallet_consistent hw₀ hquota hopen
  constructor
  · rintro ⟨-, hsilent⟩
    exact (hstart.along_iff hok).1 hsilent
  · intro hasks
    have hrun := run_rule (fun _ _ hc h => Consistent.step h hc.1 hc.2) hstart (hok.and hasks)
    exact ⟨hrun.spent_charge hdone, (hstart.along_iff hok).2 hasks⟩

/-! ## A settlement after a refund -/

/-- A session that has reserved 40 on a wallet of 100. -/
def sampleSession : Session := .onWallet (sampleInfo "wallet_only") ⟨1, 0, 40⟩ 40

/-- The tables after the reservation. -/
def sampleReserved : Db :=
  (preConsumeWallet (faultless 500) (sampleInfo "wallet_only") ⟨1, 0, 0⟩ 40 sampleTables).2

theorem sampleSession_opened :
    preConsumeWallet (faultless 500) (sampleInfo "wallet_only") ⟨1, 0, 0⟩ 40 sampleTables =
      (.ok sampleSession, sampleReserved) := by
  have hses : (preConsumeWallet (faultless 500) (sampleInfo "wallet_only") ⟨1, 0, 0⟩ 40
      sampleTables).1.toOption = some sampleSession := by decide +kernel
  exact Prod.ext (toOption_eq_some.1 hses) rfl

/-- Calls on the session without a fault. -/
def sampleCalls (calls : List Call) : List (CallEnv × Call) := calls.map fun c => (faultless 500, c)

/-- The session after some calls. -/
def sampleRun (calls : List Call) : Running :=
  run Running.step ⟨sampleSession, sampleReserved, none, .unfinished⟩ (sampleCalls calls)

/-- A settlement is final, and so is a refund after which nothing more than what was reserved is
settled. -/
theorem finalizes_once_settled :
    ((sampleRun [.reserve 45, .settle 30, .refund, .settle 50]).charge = 30 ∧
      Spent 1 (sampleInfo "wallet_only") sampleTables
        (sampleRun [.reserve 45, .settle 30, .refund, .settle 50]).db
        (sampleRun [.reserve 45, .settle 30, .refund, .settle 50]).charge) ∧
    (sampleRun [.refund, .reserve 45, .settle 40, .refundRuns, .settle 50]).charge = 0 ∧
      Spent 1 (sampleInfo "wallet_only") sampleTables
        (sampleRun [.refund, .reserve 45, .settle 40, .refundRuns, .settle 50]).db
        (sampleRun [.refund, .reserve 45, .settle 40, .refundRuns, .settle 50]).charge := by
  have hthm (calls : List Call) := finalizes_once (faultless 500) (sampleInfo "wallet_only") ⟨1, 0, 0⟩ 40
    sampleTables sampleReserved sampleSession (sampleCalls calls) rfl (by decide) sampleSession_opened
  exact ⟨⟨by decide +kernel, ((hthm _ (by decide +kernel) (by decide +kernel)).2 (by decide +kernel)).1⟩,
    by decide +kernel, ((hthm _ (by decide +kernel) (by decide +kernel)).2 (by decide +kernel)).1⟩

/-- A session that is settled for 15 after its refund of 40 leaves the wallet 25 above the balance
before the request. -/
theorem settled_after_refund :
    preConsumeWallet (faultless 500) (sampleInfo "wallet_only") ⟨1, 0, 0⟩ 40 sampleTables =
        (.ok sampleSession, sampleReserved) ∧
      Along Running.step Succeeds ⟨sampleSession, sampleReserved, none, .unfinished⟩
        (sampleCalls [.refund, .settle 15, .refundRuns]) ∧
      (sampleRun [.refund, .settle 15, .refundRuns]).refund.isNone = true ∧
      (sampleRun [.refund, .settle 15, .refundRuns]).verdict = .refunded ∧
      walletOf sampleTables.users 1 = 100 ∧
      walletOf (sampleRun [.refund, .settle 15, .refundRuns]).db.users 1 = 125 := by
  refine ⟨sampleSession_opened, ?_⟩
  decide +kernel

end LmmApi.Billing
