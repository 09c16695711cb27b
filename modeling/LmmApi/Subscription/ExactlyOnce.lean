import LmmApi.Lib.Attribution
import LmmApi.Subscription.Usage

/-!
# A request is billed exactly once

The calls for one request may be repeated, may fail and be rolled back at any statement, and a
settlement may stop between its two transactions. Whatever happens, the request has lowered its
token and its user's wallet by what its record says: `billed_exactly_once`.

The runs interleave the calls for the request with those for others and with anything else that
happens to users, tokens and subscriptions; only the steps that are calls for the request count.
A transaction that fails changes nothing, so a failure needs no step of its own.
-/

namespace LmmApi.Subscription

open Guarded Attribution Option Table PreConsumeRecord

/-- The request that a transaction is about. -/
def Op.request? : Op → Option String
  | .preConsume requestId _ _ _ _ => some requestId
  | .reserve requestId _ _ => some requestId
  | .settleIntent requestId _ _ => some requestId
  | .settleCommit requestId _ _ => some requestId
  | .refund requestId _ => some requestId
  | .reset _ _ => none

/-- What happens to the tables: a billing transaction, or a change of the other tables from outside.
-/
inductive Happening
  | call (env : Env) (op : Op)
  | outside (users : Table User) (tokens : Table Token) (subscriptions : Table UserSubscription)

def Happening.step : Happening → Db → Db
  | .call env op, db => op.step env db
  | .outside users tokens subscriptions, db => { db with users, tokens, subscriptions }

variable (r : PreConsumeRecord) (requestId : String)

/-- A call for the request. -/
def Happening.IsFor : Happening → Prop
  | .call _ op => op.request? = some requestId
  | .outside _ _ _ => False

instance (requestId : String) : DecidablePred (Happening.IsFor requestId)
  | .call _ op => inferInstanceAs (Decidable (op.request? = some requestId))
  | .outside _ _ _ => inferInstanceAs (Decidable False)

/-! ## What a request has taken -/

/-- What a record says its request has taken from its token. -/
def PreConsumeRecord.tokenDebit : ℤ :=
  match r.status with
  | .consumed | .settling => r.preConsumed
  | .settled => r.actualQuota
  | .refunded => 0

/-- What a record says its request has taken from its user's wallet. -/
def PreConsumeRecord.walletDebit : ℤ :=
  match r.status with
  | .settled => r.walletConsumed
  | _ => 0

/-- A balance that a request may take from. -/
inductive Balance
  | token (id : ℕ)
  | wallet (user : ℕ)

def Balance.of (db : Db) : Balance → ℤ
  | .token id => remainOf db.tokens id
  | .wallet user => walletOf db.users user

/-- An amount from a token and an amount from a wallet; there is no token 0. -/
def spend (token : ℕ) (fromToken : ℤ) (user : ℕ) (fromWallet : ℤ) : Balance → ℤ
  | .token id => if id = token ∧ id ≠ 0 then fromToken else 0
  | .wallet id => if id = user then fromWallet else 0

/-- What a record says its request has taken from each balance. -/
def PreConsumeRecord.debit : Balance → ℤ := spend r.tokenId r.tokenDebit r.userId r.walletDebit

/-- What the calls for a request take from a balance. -/
def taken (balance : Balance) : Db → List Happening → ℤ :=
  decrease Happening.step (Happening.IsFor requestId) (Balance.of · balance)

/-- What the record of a request says, nothing when there is none. -/
def recorded (balance : Balance) (db : Db) : ℤ :=
  match db.findRecord requestId with
  | some (_, r) => r.debit balance
  | none => 0

/-! ## The invariant -/

/-- The record `i` is the only one of its request, and a reservation has taken from its token
what it has reserved. -/
structure Only (db : Db) (i : ℕ) (r : PreConsumeRecord) : Prop where
  get : db.records.get? i = some r
  request : r.requestId = requestId
  unique : ∀ j r', db.records.get? j = some r' → r'.requestId = requestId → j = i
  token : r.status = .consumed → r.tokenId ≠ 0 → r.tokenConsumed = r.preConsumed

/-- **The invariant of a request**: its record, if there is one, says what it has taken. -/
inductive Booked (requestId : String) (db : Db) (d : Balance → ℤ) : Prop
  | absent (none : ∀ i r, db.records.get? i = some r → r.requestId ≠ requestId)
      (nothing : ∀ balance, d balance = 0)
  | present (i : ℕ) (r : PreConsumeRecord) (only : Only requestId db i r)
      (debit : ∀ balance, d balance = r.debit balance)

variable {requestId : String} {db db' : Db} {d d' : Balance → ℤ} {i : ℕ} {r r' : PreConsumeRecord}

theorem Only.of_records (h : Only requestId db i r) (hrc : db'.records = db.records) :
    Only requestId db' i r :=
  ⟨hrc ▸ h.get, h.request, hrc ▸ h.unique, h.token⟩

variable {result : BillingResult} {request : String} {user : ℕ} {actual : ℤ}

/-- A row of the request is the record. -/
theorem Only.eq {j : ℕ} (h : Only requestId db i r) (row : RecordOf db requestId user j r') :
    j = i ∧ r' = r := by
  obtain rfl := h.unique j r' row.get row.request
  exact ⟨rfl, mem_unique row.get h.get⟩

/-- The record of another request may change. -/
theorem Only.of_saveRecord {j : ℕ} {b b' : PreConsumeRecord} (h : Only requestId db i r)
    (hb : db.records.get? j = some b) (hne : b.requestId ≠ requestId)
    (hs : b'.requestId = b.requestId)
    (hrc : db'.records = db.records.modify j fun _ => b') : Only requestId db' i r := by
  have hij : i ≠ j := by
    rintro rfl
    rw [h.get] at hb
    cases hb
    exact hne h.request
  refine ⟨?_, h.request, ?_, h.token⟩
  · rw [hrc, get?_modify_of_ne _ _ hij]
    exact h.get
  · intro k c hk hc
    rw [hrc] at hk
    obtain ⟨rfl, rfl⟩ | ⟨-, hk⟩ := get?_modify_cases hb hk
    · exact absurd (hs ▸ hc) hne
    · exact h.unique k c hk hc

/-- The record changes and stays the only one. -/
theorem Only.saveRecord (h : Only requestId db i r) (hs : r'.requestId = r.requestId)
    (htok : r'.status = .consumed → r'.tokenId ≠ 0 → r'.tokenConsumed = r'.preConsumed)
    (hrc : db'.records = db.records.modify i fun _ => r') : Only requestId db' i r' := by
  refine ⟨?_, hs.trans h.request, ?_, htok⟩
  · rw [hrc, get?_modify_self, h.get, map_some]
  · intro k c hk hc
    rw [hrc] at hk
    obtain ⟨rfl, -⟩ | ⟨-, hk⟩ := get?_modify_cases h.get hk
    · rfl
    · exact h.unique k c hk hc

/-! ## Steps -/

theorem spend_add (token : ℕ) (a b : ℤ) (user : ℕ) (a' b' : ℤ) (k : Balance) :
    spend token a user a' k + spend token b user b' k = spend token (a + b) user (a' + b') k := by
  cases k with
  | token | wallet =>
    simp only [spend]
    split
    · rfl
    · exact add_zero 0

/-- The balances after a token and a wallet were drawn on. -/
theorem balance_sub {token user : ℕ} {a a' : ℤ} (htok : TokenSpent db.tokens db'.tokens token a)
    (hwal : WalletSpent db.users db'.users user a') (k : Balance) :
    Balance.of db k - Balance.of db' k = spend token a user a' k := by
  cases k with
  | token id =>
    have := htok id
    unfold Balance.of spend
    dsimp only
    omega
  | wallet id =>
    have := hwal id
    unfold Balance.of spend
    dsimp only
    omega

section

variable (h : Booked requestId db d)
include h

theorem Booked.congr (hd : ∀ k, d' k = d k)
    (hrc : db'.records = db.records) : Booked requestId db' d' := by
  cases h with
  | absent hn hz => exact .absent (hrc ▸ hn) fun k => (hd k).trans (hz k)
  | present i r honly hdeb =>
    exact .present i r (honly.of_records hrc) fun k => (hd k).trans (hdeb k)

/-- A new record of another request. -/
theorem Booked.insert (hne : r.requestId ≠ requestId)
    (hrc : db'.records = db.records.insert r) : Booked requestId db' d := by
  have hold {j b} (hj : db'.records.get? j = some b) (hb : b.requestId = requestId) :
      db.records.get? j = some b := by
    rw [hrc] at hj
    obtain ⟨-, rfl⟩ | hj := get?_insert_cases hj
    · exact absurd hb hne
    · exact hj
  cases h with
  | absent hn hz => exact .absent (fun j b hj hb => hn j b (hold hj hb) hb) hz
  | present i r' honly hdeb =>
    refine .present i r' ⟨?_, honly.request, ?_, honly.token⟩ hdeb
    · rw [hrc, get?_insert_of_get? honly.get]
    · exact fun j b hj hb => honly.unique j b (hold hj hb) hb

/-- The first record of a request. -/
theorem Booked.reserve (hfr : ∀ i r, db.records.get? i = some r → r.requestId ≠ request)
    (hreq : r.requestId = request) (hst : r.status = .consumed)
    (htok : r.tokenId ≠ 0 → r.tokenConsumed = r.preConsumed)
    (hrc : db'.records = db.records.insert r)
    (hsp : TokenSpent db.tokens db'.tokens r.tokenId r.preConsumed) (hus : db'.users = db.users) :
    Booked requestId db' fun k => d k +
        if some request = some requestId then Balance.of db k - Balance.of db' k else 0 := by
  by_cases hmine : request = requestId
  · subst hmine
    cases h with
    | present i r₀ honly => exact absurd honly.request (hfr i r₀ honly.get)
    | absent _ hz =>
      refine .present db.records.next r ⟨?_, hreq, ?_, fun _ => htok⟩ fun k => ?_
      · rw [hrc, get?_insert_self]
      · intro j b hj hb
        rw [hrc] at hj
        obtain ⟨rfl, -⟩ | hj := get?_insert_cases hj
        · rfl
        · exact absurd hb (hfr j b hj)
      · have hp : WalletSpent db.users db'.users r.userId 0 := by
          rw [hus]
          exact walletSpent_zero _ _
        rw [if_pos rfl, hz, zero_add, balance_sub hsp hp]
        simp only [debit, tokenDebit, walletDebit, hst]
  · simp only [some.injEq, hmine, if_false, add_zero]
    exact h.insert (hreq ▸ hmine) hrc

/-- The change of a record by a call for its request: what the record says changes with what the
call takes. -/
theorem Booked.change {user j : ℕ}
    (row : RecordOf db request user j r) (hrc : db'.records = db.records.modify j fun _ => r')
    (hreq : r'.requestId = r.requestId) (htok : r'.tokenId = r.tokenId) (hu : r'.userId = r.userId)
    (hsp : (r.status = .consumed → r.tokenId ≠ 0 → r.tokenConsumed = r.preConsumed) →
      TokenSpent db.tokens db'.tokens r.tokenId (r'.tokenDebit - r.tokenDebit) ∧
      (r'.status = .consumed → r.tokenId ≠ 0 → r'.tokenConsumed = r'.preConsumed))
    (hp : WalletSpent db.users db'.users user (r'.walletDebit - r.walletDebit)) :
    Booked requestId db' fun k => d k +
        if some request = some requestId then Balance.of db k - Balance.of db' k else 0 := by
  by_cases hmine : request = requestId
  · subst hmine
    cases h with
    | absent hn => exact absurd row.request (hn j r row.get)
    | present _ _ honly hdeb =>
      obtain ⟨rfl, rfl⟩ := honly.eq row
      obtain ⟨hsp, htok'⟩ := hsp honly.token
      refine .present j r' (honly.saveRecord hreq (htok ▸ htok') hrc) fun k => ?_
      obtain rfl := row.owner
      rw [if_pos rfl, hdeb, balance_sub hsp hp, debit, spend_add,
        debit, htok, hu, add_sub_cancel, add_sub_cancel]
  · have hne : r.requestId ≠ requestId := row.request ▸ hmine
    simp only [some.injEq, hmine, if_false, add_zero]
    cases h with
    | absent hn hz =>
      refine .absent (fun k b hk => ?_) hz
      rw [hrc] at hk
      obtain ⟨-, rfl⟩ | ⟨-, hk⟩ := get?_modify_cases row.get hk
      · exact hreq ▸ hne
      · exact hn k b hk
    | present i r₀ honly hdeb => exact .present i r₀ (honly.of_saveRecord row.get hne hreq hrc) hdeb

theorem Booked.effect {op : Op} (heff : Effect db op db') : Booked requestId db' fun k => d k +
    if op.request? = some requestId then Balance.of db k - Balance.of db' k else 0 := by
  cases heff with
  | idle => exact h.congr (fun k => by rw [sub_self, ite_self, add_zero]) rfl
  | reset _ _ hrese => exact h.congr (fun k => add_zero _) (Resets.kept (.single hrese)).2.2
  | reserved request user tokenId amount overflow hres id sub _ hfr _ _ _ hsp =>
    obtain ⟨hus, htoke, hrc⟩ := hres.kept
    have hins := congrArg (Table.insert · (reservation request user id tokenId
      amount overflow sub.quotaVersion)) hrc
    exact h.reserve hfr rfl rfl (fun hz => if_neg hz) hins (htoke ▸ hsp) hus
  | raised _ user _ _ _ _ _ row hst _ _ _ _ hsp =>
    refine h.change row rfl rfl rfl rfl (fun htok => ⟨?_, ?_⟩) ?_
    · simpa [tokenDebit, hst] using hsp
    · intro _ hz
      simp only [hz, if_false, htok hst hz]
      ring
    · simpa [walletDebit, hst] using walletSpent_zero db.users user
  | intended _ user _ _ r row hst =>
    refine h.change row rfl rfl rfl rfl (fun htok => ⟨?_, nofun⟩) ?_
    · simpa [tokenDebit, hst] using tokenSpent_zero db.tokens r.tokenId
    · simpa [walletDebit, hst] using walletSpent_zero db.users user
  | settled _ _ _ _ _ _ _ _ _ _ row hst hact _ _ hp hsp =>
    subst hact
    refine h.change row rfl rfl rfl rfl (fun htok => ⟨?_, nofun⟩) ?_
    · simpa [tokenDebit, hst] using hsp
    · simpa [walletDebit, hst] using hp
  | released _ user _ _ _ _ row hst _ _ _ hsp
  | forgotten _ user _ _ _ _ row hst _ _ hsp =>
    refine h.change row rfl rfl rfl rfl (fun htok => ⟨?_, nofun⟩) ?_
    · have hamt := hsp.congr fun hz => congrArg Neg.neg (htok hst hz)
      simpa [tokenDebit, hst] using hamt
    · simpa [walletDebit, hst] using walletSpent_zero db.users user

/-- **What the record of a request says stays true**, whatever happens. -/
theorem Booked.step (happening : Happening) :
    Booked requestId (happening.step db) fun k => d k +
      stepDecrease Happening.step (Happening.IsFor requestId) (Balance.of · k) happening db := by
  cases happening with
  | outside => exact h.congr (fun k => add_zero _) rfl
  | call env op => exact h.effect (op.effect env db)

end

section

variable (h : Only requestId db i r)
include h

theorem Only.findRecord : db.findRecord requestId = some (i, r) := by
  cases hfd : db.findRecord requestId with
  | none => exact absurd h.request (first?_eq_none hfd h.get)
  | some row =>
    obtain ⟨j, b⟩ := row
    obtain ⟨hg, hreq⟩ := first?_eq_some hfd
    obtain rfl := h.unique j b hg hreq
    obtain rfl := mem_unique hg h.get
    rfl

omit h in
/-- A record of the request is the one that says what it has taken. -/
theorem Booked.of_get (h : Booked requestId db d) (hget : db.records.get? i = some r)
    (hreq : r.requestId = requestId) :
    Only requestId db i r ∧ db.findRecord requestId = some (i, r) ∧ ∀ k, d k = r.debit k := by
  cases h with
  | absent hn => exact absurd hreq (hn i r hget)
  | present _ _ honly hdeb =>
    obtain rfl := honly.unique i r hget hreq
    obtain rfl := mem_unique hget honly.get
    exact ⟨honly, honly.findRecord, hdeb⟩

omit h in
theorem Booked.recorded (h : Booked requestId db d) (k : Balance) :
    d k = recorded requestId k db := by
  unfold Subscription.recorded
  cases h with
  | absent hn hz =>
    have hfd : db.findRecord requestId = none := eq_none_iff_forall_ne_some.2 fun row hrow =>
      hn row.1 row.2 (first?_eq_some hrow).1 (first?_eq_some hrow).2
    rw [hfd, hz]
  | present _ _ honly hdeb => rw [honly.findRecord, hdeb]

/-! ## Final states and stored intents -/

/-- A settlement intent is stored. -/
def Intended (r : PreConsumeRecord) : Prop := r.status = .settling ∨ r.status = .settled

/-- The request is settled or refunded. -/
def Final (r : PreConsumeRecord) : Prop := r.status = .settled ∨ r.status = .refunded

/-- What a stored intent and a final status rule out. -/
structure Decided (requestId : String) (db : Db) (i : ℕ) (r : PreConsumeRecord) : Prop where
  /-- Storing the same intent again changes nothing. -/
  intentAgain : Intended r → ∀ env user,
    (Op.settleIntent requestId user r.actualQuota).step env db = db
  /-- Settling a settled request with the same amount changes nothing. -/
  settleAgain : r.status = .settled → ∀ env user,
    (settleSubscriptionBilling env requestId user r.actualQuota db).2 = db
  /-- Settling with another amount fails and changes nothing. -/
  settleOther : Intended r → ∀ env user actual, actual ≠ r.actualQuota →
    ∃ e, settleSubscriptionBilling env requestId user actual db = ((none, some e), db)
  /-- A refund fails and changes nothing. -/
  refund : Intended r → ∀ env user, (∃ e, refundSubscriptionBilling requestId user db = .error e) ∧
    (Op.refund requestId user).step env db = db
  /-- A record with a final status stays as it is. -/
  final : Final r → ∀ happenings,
    (run Happening.step db happenings).findRecord requestId = some (i, r)

/-- A transaction on the record of a request that commits ran on that record. -/
theorem Only.mutate {fn : Db → PreConsumeRecord → Except Failure (PreConsumeRecord × Db)}
    (hcom : mutateSubscriptionBilling requestId user fn db = .ok (result, db')) :
    ∃ r' db₁, fn db r = .ok (r', db₁) ∧ db' = db₁.saveRecord i r' := by
  obtain ⟨j, b, r', db₁, row, hfn, rfl⟩ := mutate_eq_ok hcom
  obtain ⟨rfl, rfl⟩ := h.eq row
  exact ⟨r', db₁, hfn, rfl⟩

theorem Only.intent_error (hint : Intended r) (user : ℕ) (hne : actual ≠ r.actualQuota) :
    ∃ e, settleSubscriptionBillingIntent requestId user actual db = .error e := by
  cases hcom : settleSubscriptionBillingIntent requestId user actual db with
  | error e => exact ⟨e, rfl⟩
  | ok =>
    simp only [settleSubscriptionBillingIntent, eq_ok] at hcom
    obtain ⟨r', _, htx, -⟩ := h.mutate hcom.2
    rcases hint with hst | hst <;> simp only [settleIntentTx, hst, eq_ok] at htx <;>
      exact absurd htx.1.symm hne

theorem Only.intent_ok (hint : Intended r)
    (hcom : settleSubscriptionBillingIntent requestId user actual db = .ok (result, db')) :
    db' = db := by
  cases settleIntent_effect hcom with
  | idle => rfl
  | intended _ _ _ _ _ row hst =>
    obtain ⟨rfl, rfl⟩ := h.eq row
    rcases hint with h | h <;> simp [h] at hst

theorem Only.commit_ok (hset : r.status = .settled) {env : Env}
    (hcom : settleSubscriptionBillingCommit env requestId user actual db = .ok (result, db')) :
    db' = db := by
  cases settleCommit_effect hcom with
  | idle => rfl
  | settled _ _ _ _ _ _ _ _ _ _ row hst =>
    obtain ⟨rfl, rfl⟩ := h.eq row
    simp [hset] at hst

theorem Only.refund_error (hint : Intended r) (user : ℕ) :
    ∃ e, refundSubscriptionBilling requestId user db = .error e := by
  cases hcom : refundSubscriptionBilling requestId user db with
  | error e => exact ⟨e, rfl⟩
  | ok =>
    obtain ⟨r', _, htx, -⟩ := h.mutate hcom
    rcases hint with hst | hst <;> simp [refundTx, hst, bind_eq_ok, require_eq_ok] at htx

/-- The change of a record without a final status leaves one with a final status alone. -/
theorem Only.of_change (hfin : Final r)
    {user j : ℕ} {b b' : PreConsumeRecord} (row : RecordOf db request user j b) (hop : ¬Final b)
    (hrc : db'.records = db.records.modify j fun _ => b')
    (hs : b'.requestId = b.requestId) : Only requestId db' i r := by
  by_cases hmine : request = requestId
  · subst hmine
    obtain ⟨rfl, rfl⟩ := h.eq row
    exact absurd hfin hop
  · exact h.of_saveRecord row.get (row.request ▸ hmine) hs hrc

theorem Only.effect (hfin : Final r) {op : Op} (heff : Effect db op db') : Only requestId db' i r := by
  cases heff with
  | idle => exact h
  | reset _ _ hrese => exact h.of_records (Resets.kept (.single hrese)).2.2
  | reserved request _ _ _ _ hres _ _ _ hfr =>
    have hne : request ≠ requestId := fun heq => hfr i r h.get (h.request.trans heq.symm)
    have h₁ := h.of_records hres.kept.2.2
    refine ⟨get?_insert_of_get? h₁.get, h.request, fun j b hj hb => ?_, h.token⟩
    obtain ⟨-, rfl⟩ | hj := get?_insert_cases hj
    · exact absurd hb hne
    · exact h₁.unique j b hj hb
  | raised _ _ _ _ _ _ _ row hst | intended _ _ _ _ _ row hst | released _ _ _ _ _ _ row hst
  | forgotten _ _ _ _ _ _ row hst | settled _ _ _ _ _ _ _ _ _ _ row hst =>
    exact h.of_change hfin row (by simp [Final, hst]) rfl rfl

/-- **A final record stays**, whatever happens. -/
theorem Only.run (hfin : Final r) (happenings : List Happening) :
    Only requestId (Attribution.run Happening.step db happenings) i r := by
  refine run_rule_any (P := (Only requestId · i r)) (fun db happening h => ?_) h happenings
  cases happening with
  | outside => exact h.of_records rfl
  | call env op => exact h.effect hfin (op.effect env db)

theorem Only.decided : Decided requestId db i r where
  intentAgain hint env user := by
    unfold Op.step
    cases hcom : (Op.settleIntent requestId user r.actualQuota).run env db with
    | error => rfl
    | ok db' =>
      obtain ⟨⟨result, _⟩, hinte, rfl⟩ := map_eq_ok.1 hcom
      exact h.intent_ok hint hinte
  settleAgain hset env user := by
    unfold settleSubscriptionBilling
    split
    · rfl
    · rename_i intent db₁ hinte
      obtain rfl := h.intent_ok (.inr hset) hinte
      split
      · rfl
      · rename_i result db₂ hcom
        exact h.commit_ok hset hcom
  settleOther hint env user actual hne := by
    obtain ⟨e, he⟩ := h.intent_error hint user hne
    exact ⟨e, by simp only [settleSubscriptionBilling, he]⟩
  refund hint env user := by
    obtain ⟨e, he⟩ := h.refund_error hint user
    refine ⟨⟨e, he⟩, ?_⟩
    simp [Op.step, Op.run, he, Except.map, Except.toOption]
  final hfin happenings := (h.run hfin happenings).findRecord

end

/-! ## Calls that succeed -/

/-- What the calls for a request leave when they succeed after some happenings: a record with the
status of the call, and what they have taken so far. -/
structure Completes (requestId : String) (db : Db) (happenings : List Happening) : Prop where
  preConsume : ∀ env user tokenId amount walletOverflow result db',
    preConsumeSubscriptionBilling env requestId user tokenId amount walletOverflow
      (run Happening.step db happenings) = .ok (result, db') →
    ∃ i r, db'.findRecord requestId = some (i, r) ∧ r.status = .consumed ∧
      r.preConsumed = result.preConsumed ∧ ∀ balance, taken requestId balance db
        (happenings ++ [.call env (.preConsume requestId user tokenId amount walletOverflow)]) =
          spend r.tokenId r.preConsumed r.userId 0 balance
  settle : ∀ env user actual result db', settleSubscriptionBilling env requestId user actual
      (run Happening.step db happenings) = ((some result, none), db') →
    ∃ i r, db'.findRecord requestId = some (i, r) ∧ r.status = .settled ∧ r.actualQuota = actual ∧
      ∀ balance, taken requestId balance db (happenings ++
        [.call env (.settleIntent requestId user actual), .call env (.settleCommit requestId user actual)]) =
          spend r.tokenId actual r.userId r.walletConsumed balance
  refund : ∀ env user result db', refundSubscriptionBilling requestId user
      (run Happening.step db happenings) = .ok (result, db') →
    ∃ i r, db'.findRecord requestId = some (i, r) ∧ r.status = .refunded ∧
      ∀ balance, taken requestId balance db (happenings ++ [.call env (.refund requestId user)]) = 0

/-- The transactions keep the other records, and leave the status that they are for. -/
theorem settleIntentTx_leaves (h : settleIntentTx actual db r = .ok (r', db')) :
    r'.requestId = r.requestId ∧ db'.records = db.records ∧ r'.actualQuota = actual := by
  unfold settleIntentTx at h
  split at h
  case h_3 => cases h
  case h_4 =>
    obtain ⟨⟩ := pure_eq_ok.1 h
    exact ⟨rfl, rfl, rfl⟩
  all_goals
    simp only [eq_ok] at h
    obtain ⟨hact, rfl, rfl⟩ := h
    exact ⟨rfl, rfl, hact⟩

theorem settleCommitTx_leaves {env : Env} (h : settleCommitTx env user actual db r = .ok (r', db')) :
    r'.requestId = r.requestId ∧ db'.records = db.records ∧ r'.status = .settled ∧
      r'.actualQuota = r.actualQuota := by
  unfold settleCommitTx at h
  split at h
  case isTrue hst =>
    obtain ⟨⟩ := pure_eq_ok.1 h
    exact ⟨rfl, rfl, hst, rfl⟩
  case isFalse =>
    simp only [eq_ok] at h
    obtain ⟨-, _, -, -, _, -, -, _, -, _, -, rfl, rfl⟩ := h
    exact ⟨rfl, rfl, rfl, rfl⟩

theorem refundTx_leaves (h : refundTx user db r = .ok (r', db')) :
    r'.requestId = r.requestId ∧ db'.records = db.records ∧ r'.status = .refunded := by
  unfold refundTx at h
  split at h
  case isTrue hst =>
    obtain ⟨⟩ := pure_eq_ok.1 h
    exact ⟨rfl, rfl, hst⟩
  case isFalse =>
    simp only [eq_ok, releaseReservation] at h
    obtain ⟨-, _, -, _, hrel, _, -, rfl, rfl⟩ := h
    refine ⟨rfl, ?_, rfl⟩
    split at hrel
    · obtain ⟨_, -, -, rfl⟩ := postConsume_eq_ok hrel
      rfl
    · obtain rfl := pure_eq_ok.1 hrel
      rfl

/-- A transaction on the record leaves what it returns in the record's place. -/
theorem Booked.mutated {fn : Db → PreConsumeRecord → Except Failure (PreConsumeRecord × Db)}
    {P : PreConsumeRecord → PreConsumeRecord → Prop} (h : Booked requestId db' d)
    (hfn : ∀ r r' db₁, fn db r = .ok (r', db₁) →
      r'.requestId = r.requestId ∧ db₁.records = db.records ∧ P r r')
    (hcom : mutateSubscriptionBilling requestId user fn db = .ok (result, db')) :
    ∃ i r r', RecordOf db requestId user i r ∧ db'.findRecord requestId = some (i, r') ∧ P r r' ∧
      ∀ k, d k = r'.debit k := by
  obtain ⟨i, r, r', db₁, row, hr, rfl⟩ := mutate_eq_ok hcom
  obtain ⟨hreq, hrec, hP⟩ := hfn r r' db₁ hr
  have hget : (db₁.saveRecord i r').records.get? i = some r' := by
    rw [Db.saveRecord, get?_modify_self, hrec, row.get, map_some]
  obtain ⟨-, hfd, hdeb⟩ := h.of_get hget (hreq.trans row.request)
  exact ⟨i, r, r', row, hfd, hP, hdeb⟩

section

variable (hfr : ∀ i r, db.records.get? i = some r → r.requestId ≠ requestId)
  (happenings : List Happening)

/-- A call that commits is one more happening. -/
theorem run_call {env : Env} {op : Op}
    (h : op.run env (run Happening.step db happenings) = .ok db') :
    run Happening.step db (happenings ++ [.call env op]) = db' := by
  rw [run, List.foldl_append]
  exact congrArg (fun out => (Except.toOption out).getD _) h

include hfr

/-- The record of a request says what its calls have taken, in every run. -/
theorem booked_run : Booked requestId (run Happening.step db happenings)
    fun balance => taken requestId balance db happenings := by
  have hsta : Booked requestId db fun _ => 0 := .absent hfr fun _ => rfl
  have hend := decrease_rule (fun _ _ happening h => h.step happening) hsta happenings
  simp only [zero_add] at hend
  exact hend

theorem completes : Completes requestId db happenings where
  preConsume env user tokenId amount walletOverflow result db' h := by
    have hend := booked_run hfr (happenings ++
      [.call env (.preConsume requestId user tokenId amount walletOverflow)])
    rw [run_call happenings (by rw [Op.run, h]; rfl)] at hend
    cases preConsume_eq_ok h with
    | replayed i r hfd hs _ _ _ hres =>
      obtain ⟨hget, hreq⟩ := first?_eq_some hfd
      obtain ⟨-, hfd, hdeb⟩ := hend.of_get hget hreq
      refine ⟨i, r, hfd, hs.2.2.2.2, hres.symm, fun k => (hdeb k).trans ?_⟩
      simp only [debit, tokenDebit, walletDebit, hs.2.2.2.2]
    | reserved _ _ _ _ _ _ _ _ hamt =>
      obtain ⟨-, hfd, hdeb⟩ := hend.of_get (get?_insert_self ..) rfl
      exact ⟨_, _, hfd, rfl, hamt.symm, hdeb⟩
  settle env user actual result db' h := by
    unfold settleSubscriptionBilling at h
    split at h
    case h_1 => cases h
    case h_2 intent db₁ hint =>
      split at h
      case h_1 => cases h
      case h_2 hcom =>
        obtain ⟨-, rfl⟩ := Prod.mk.inj h
        have hmid := booked_run hfr (happenings ++ [.call env (.settleIntent requestId user actual)])
        have hend := booked_run hfr ((happenings ++ [.call env (.settleIntent requestId user actual)]) ++
          [.call env (.settleCommit requestId user actual)])
        have hrun : run Happening.step db
            (happenings ++ [.call env (.settleIntent requestId user actual)]) = db₁ :=
          run_call happenings (by rw [Op.run, hint]; rfl)
        rw [hrun] at hmid
        rw [run_call _ (by rw [hrun, Op.run, hcom]; rfl), List.append_assoc] at hend
        simp only [settleSubscriptionBillingIntent, eq_ok] at hint
        obtain ⟨_, _, r, -, hfd, hact, -⟩ := hmid.mutated (fun _ _ _ => settleIntentTx_leaves) hint.2
        obtain ⟨_, _, r', row, hfd', ⟨hset, hsame⟩, hdeb⟩ :=
          hend.mutated (fun _ _ _ => settleCommitTx_leaves) hcom
        cases hfd.symm.trans (hmid.of_get row.get row.request).2.1
        refine ⟨_, r', hfd', hset, hsame.trans hact, fun k => (hdeb k).trans ?_⟩
        simp only [debit, tokenDebit, walletDebit, hset, hsame, hact]
  refund env user result db' h := by
    have hend := booked_run hfr (happenings ++ [.call env (.refund requestId user)])
    rw [run_call happenings (by rw [Op.run, h]; rfl)] at hend
    obtain ⟨i, _, r, -, hfd, hst, hdeb⟩ := hend.mutated (fun _ _ _ => refundTx_leaves) h
    refine ⟨i, r, hfd, hst, fun k => (hdeb k).trans ?_⟩
    cases k <;> simp [debit, tokenDebit, walletDebit, hst, spend]

end

/-- **A request is billed exactly once.** Along every run from tables without a record of the
request, the calls for it have taken from every token and every wallet what its record says: nothing
before the reservation and after a refund, the reservation until the settlement, and then the actual
cost, of which the wallet has paid its part. A call that succeeds leaves the record with its status
and its amount. A stored intent cannot be replaced or refunded, and a settled or refunded record
stays. -/
theorem billed_exactly_once (hfresh : ∀ i r, db.records.get? i = some r → r.requestId ≠ requestId)
    (happenings : List Happening) :
    let db' := run Happening.step db happenings
    (∀ balance, taken requestId balance db happenings = recorded requestId balance db') ∧
      Completes requestId db happenings ∧
      ∀ i r, db'.findRecord requestId = some (i, r) → Decided requestId db' i r := by
  intro db'
  have hbooked := booked_run hfresh happenings
  refine ⟨hbooked.recorded, completes hfresh happenings, fun i r hfind => ?_⟩
  obtain ⟨hget, hrequest⟩ := first?_eq_some hfind
  exact (hbooked.of_get hget hrequest).1.decided

/-- The happenings of the sample run. -/
def sampleHappenings : List Happening := sampleEvents.map fun e => .call e.env e.op

/-- One request is settled, another one beyond its quota, and the third is refunded: nothing is left
of what it has taken. -/
theorem billed_exactly_once_overflow : taken "a" (.token 1) sampleDb sampleHappenings = 30 ∧
    taken "b" (.wallet 1) sampleDb sampleHappenings = 20 ∧
    (∃ i r, (run Happening.step sampleDb sampleHappenings).findRecord "b" = some (i, r) ∧
      r.status = .settled ∧ Decided "b" (run Happening.step sampleDb sampleHappenings) i r) ∧
    taken "c" (.token 1) sampleDb sampleHappenings = 50 ∧
    taken "c" (.token 1) sampleDb
      (sampleHappenings ++ [.call (dailyEvent 90000 (.refund "c" 1)).env (.refund "c" 1)]) = 0 := by
  have hfresh requestId i r (hr : sampleDb.records.get? i = some r) : r.requestId ≠ requestId :=
    nomatch hr
  have hone := billed_exactly_once (hfresh "a") sampleHappenings
  have htwo := billed_exactly_once (hfresh "b") sampleHappenings
  have hthree := billed_exactly_once (hfresh "c") sampleHappenings
  obtain ⟨⟨i, r⟩, hfind, hstatus⟩ : ∃ row ∈ (run Happening.step sampleDb
      sampleHappenings).findRecord "b", row.2.status = .settled := by decide +kernel
  have hrefund : (refundSubscriptionBilling "c" 1
      (run Happening.step sampleDb sampleHappenings)).toOption.isSome := by decide +kernel
  obtain ⟨⟨result, db'⟩, hrefund⟩ := isSome_iff_exists.1 hrefund
  obtain ⟨_, _, -, -, hzero⟩ := hthree.2.1.refund (dailyEvent 90000 (.refund "c" 1)).env 1 result db'
    (toOption_eq_some.1 hrefund)
  exact ⟨(hone.1 _).trans (by decide +kernel), (htwo.1 _).trans (by decide +kernel),
    ⟨i, r, hfind, hstatus, htwo.2.2 i r hfind⟩, (hthree.1 _).trans (by decide +kernel), hzero _⟩

end LmmApi.Subscription
