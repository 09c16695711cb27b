import LmmApi.Subscription.Billing

/-!
# What a billing transaction can do

`Op.effect` is the inversion of all billing transactions: one constructor of `Effect` for each thing
that a transaction can do to the tables, with the facts it has checked. The invariants of the
later modules are derived from it, and none of them unfolds a transaction again.
-/

namespace LmmApi.Subscription

open Guarded List Option Table

variable {env : Env} {db db' : Db}

/-! ## Tokens and wallets -/

/-- The remaining quota of a token, zero for a token that is not there. -/
def remainOf (tokens : Table Token) (id : ℕ) : ℤ := (tokens.get? id).elim 0 Token.remainQuota

/-- The tokens after `delta` was taken from `token`; there is no token 0. -/
def TokenSpent (tokens tokens' : Table Token) (token : ℕ) (delta : ℤ) : Prop :=
  ∀ k, remainOf tokens' k = remainOf tokens k - if k = token ∧ k ≠ 0 then delta else 0

theorem tokenSpent_of_delta {tokens tokens' : Table Token} {user token : ℕ} {delta : ℤ}
    {reserve : Bool}
    (h : subscriptionBillingTokenDelta tokens user token delta reserve = .ok tokens') :
    TokenSpent tokens tokens' token delta := by
  intro k
  unfold subscriptionBillingTokenDelta at h
  split at h
  · rename_i hz
    obtain rfl := pure_eq_ok.1 h
    rw [if_neg (by omega), sub_zero]
  · rename_i hz
    simp only [eq_ok] at h
    obtain ⟨_, hr, -, -, -, -, rfl⟩ := h
    unfold remainOf
    by_cases hk : k = token
    · subst hk
      rw [get?_modify_self, hr, if_pos ⟨rfl, hz⟩]
      rfl
    · rw [get?_modify_of_ne _ _ hk, if_neg (fun h => hk h.1), sub_zero]

theorem tokenSpent_zero (tokens : Table Token) (token : ℕ) : TokenSpent tokens tokens token 0 := by
  intro k
  rw [ite_self, sub_zero]

/-- The amount matters only where there is a token. -/
theorem TokenSpent.congr {tokens tokens' : Table Token} {token : ℕ} {delta delta' : ℤ}
    (h : TokenSpent tokens tokens' token delta) (heq : token ≠ 0 → delta = delta') :
    TokenSpent tokens tokens' token delta' := by
  intro k
  rw [h k]
  split
  · rename_i hk
    rw [heq (hk.1 ▸ hk.2)]
  · rfl

/-- The users after `amount` was taken from a wallet. -/
def WalletSpent (users users' : Table User) (user : ℕ) (amount : ℤ) : Prop :=
  ∀ j, walletOf users' j = walletOf users j - if j = user then amount else 0

theorem walletSpent_zero (users : Table User) (user : ℕ) : WalletSpent users users user 0 := by
  intro j
  rw [ite_self, sub_zero]

variable {requestId : String} {result : BillingResult} {user : ℕ} {actual : ℤ} {amount : ℤ}

theorem WalletSpent.trans {users users' users'' : Table User} {a b : ℤ}
    (h₁ : WalletSpent users users' user a) (h₂ : WalletSpent users' users'' user b) :
    WalletSpent users users'' user (a + b) := by
  intro j
  rw [h₂ j, h₁ j]
  split <;> ring

theorem walletSpent_of_delta {users users' : Table User} {id : ℕ} {delta : ℤ}
    (h : applyWalletQuotaDelta users id delta = .ok users') :
    WalletSpent users users' id (-delta) := by
  intro j
  simp only [applyWalletQuotaDelta, eq_ok] at h
  obtain ⟨-, -, _, -, -, h⟩ := h
  split at h
  · rename_i hz
    simp only [eq_ok] at h
    obtain ⟨-, rfl⟩ := h
    simp [hz]
  · obtain ⟨-, u, hu, -, -, rfl⟩ := updateWalletQuotaByDelta_eq_ok.1 h
    rw [walletOf_addQuota hu]
    split <;> ring

theorem walletSpent_of_charge {users users' : Table User} {wallet : ℤ}
    (h₀ : 0 ≤ wallet) (h : chargeWallet users user wallet = .ok users') :
    WalletSpent users users' user wallet := by
  unfold chargeWallet at h
  split at h
  · simp only [eq_ok] at h
    have hsp := walletSpent_of_delta h.2
    rwa [neg_neg] at hsp
  · rename_i hpos
    obtain rfl := pure_eq_ok.1 h
    intro j
    rw [show wallet = 0 by omega, ite_self, sub_zero]

/-! ## Resets -/

/-- The reset of one subscription. -/
inductive ResetStep (db : Db) : Db → Prop
  | mk (id : ℕ) (sub sub' : UserSubscription) (get : db.subscriptions.get? id = some sub)
      (renewed : Renewed sub sub') : ResetStep db (db.saveSubscription id sub')

/-- Resets one after the other. -/
abbrev Resets : Db → Db → Prop := Relation.ReflTransGen ResetStep

theorem Resets.kept (h : Resets db db') :
    db'.users = db.users ∧ db'.tokens = db.tokens ∧ db'.records = db.records := by
  induction h with
  | refl => exact ⟨rfl, rfl, rfl⟩
  | tail _ hs ih =>
    obtain ⟨id, _, _, _, _⟩ := hs
    exact ih

/-! ## Settlements -/

/-- The amounts of a settlement. Only a settlement of the current period lowers the used amount, and
then the wallet has no part in it. -/
structure Settlement (r : PreConsumeRecord) (sub : UserSubscription) (actual subDelta wallet : ℤ) :
    Prop where
  wallet_nonneg : 0 ≤ wallet
  current : sub.quotaVersion = r.reservedVersion → subDelta = actual - r.preConsumed - wallet
  later : sub.quotaVersion ≠ r.reservedVersion → subDelta = max 0 (actual - r.preConsumed) - wallet
  down : subDelta < 0 → sub.quotaVersion = r.reservedVersion ∧ wallet = 0
  fits : 0 < sub.amountTotal → 0 < subDelta → sub.amountUsed + subDelta ≤ sub.amountTotal

theorem settlement_of_split {r : PreConsumeRecord} {sub : UserSubscription}
    {active : List (ℕ × UserSubscription)} {split : ℤ × ℤ}
    (h : settlementSplit r sub active actual = .ok split) :
    Settlement r sub actual (versionedDelta r sub split.1) split.2 := by
  unfold settlementSplit at h
  dsimp only at h
  generalize hrem : (if sub.amountTotal - sub.amountUsed < 0 then 0 else
    sub.amountTotal - sub.amountUsed) = remaining at h
  have hrem : 0 ≤ remaining ∧
      (0 < remaining → sub.amountUsed + remaining = sub.amountTotal) ∧
      sub.amountTotal - sub.amountUsed ≤ remaining := by
    split at hrem <;> omega
  unfold versionedDelta
  split at h
  · -- The quota does not cover the difference, and the wallet takes the rest.
    simp only [eq_ok] at h
    obtain ⟨-, rfl⟩ := h
    rw [if_neg (by omega)]
    constructor <;> dsimp only <;> omega
  · obtain rfl := pure_eq_ok.1 h
    dsimp only
    split <;> constructor <;> omega

/-! ## The effects -/

/-- The record of a new reservation. -/
def PreConsumeRecord.reservation (requestId : String) (user id tokenId : ℕ) (amount : ℤ)
    (walletOverflow : Bool) (version : ℤ) : PreConsumeRecord :=
  (PreConsumeRecord.consumed requestId user id amount).manage tokenId amount walletOverflow version

/-- The managed record `i` of a request of a user. -/
structure RecordOf (db : Db) (requestId : String) (user i : ℕ) (r : PreConsumeRecord) : Prop where
  find : db.findManaged requestId user = some (i, r)
  get : db.records.get? i = some r
  request : r.requestId = requestId
  owner : r.userId = user
  managed : r.billingManaged = true

/-- Write a record back. -/
def Db.saveRecord (db : Db) (i : ℕ) (r : PreConsumeRecord) : Db :=
  { db with records := db.records.modify i fun _ => r }

@[simp]
theorem Db.saveRecord_users (db : Db) (i : ℕ) (r : PreConsumeRecord) :
    (db.saveRecord i r).users = db.users := rfl

@[simp]
theorem Db.saveRecord_tokens (db : Db) (i : ℕ) (r : PreConsumeRecord) :
    (db.saveRecord i r).tokens = db.tokens := rfl

/-- Change the used amount of a subscription. -/
def Db.setUsed (db : Db) (id : ℕ) (sub : UserSubscription) (used : ℤ) : Db :=
  db.saveSubscription id { sub with amountUsed := used }

@[simp]
theorem Db.setUsed_users (db : Db) (id : ℕ) (sub : UserSubscription) (used : ℤ) :
    (db.setUsed id sub used).users = db.users := rfl

@[simp]
theorem Db.setUsed_tokens (db : Db) (id : ℕ) (sub : UserSubscription) (used : ℤ) :
    (db.setUsed id sub used).tokens = db.tokens := rfl

/-- **What a billing transaction can do.** -/
inductive Effect (db : Db) : Op → Db → Prop
  | idle (op : Op) : Effect db op db
  | reset (id : ℕ) (plan : SubscriptionPlan) {db' : Db} (step : ResetStep db db') :
      Effect db (.reset id plan) db'
  | reserved (requestId : String) (user tokenId : ℕ) (amount : ℤ) (walletOverflow : Bool)
      {db₁ : Db} (resets : Resets db db₁) (id : ℕ) (sub : UserSubscription) (tokens : Table Token)
      (fresh : ∀ i r, db.records.get? i = some r → r.requestId ≠ requestId)
      (get : db₁.subscriptions.get? id = some sub) (pos : 0 < amount)
      (fits : 0 < sub.amountTotal → sub.amountUsed + amount ≤ sub.amountTotal)
      (spent : TokenSpent db₁.tokens tokens tokenId amount) :
      Effect db (.preConsume requestId user tokenId amount walletOverflow)
        { db₁.setUsed id sub (sub.amountUsed + amount) with
          tokens
          records := db₁.records.insert (.reservation requestId user id tokenId amount
            walletOverflow sub.quotaVersion) }
  | raised (requestId : String) (user : ℕ) (target : ℤ) (i : ℕ) (r : PreConsumeRecord)
      (sub : UserSubscription) (tokens : Table Token) (row : RecordOf db requestId user i r)
      (status : r.status = .consumed) (more : r.preConsumed < target)
      (get : db.subscriptions.get? r.userSubscriptionId = some sub)
      (version : sub.quotaVersion = r.reservedVersion)
      (fits : 0 < sub.amountTotal →
        clampUsed (sub.amountUsed + (target - r.preConsumed)) ≤ sub.amountTotal)
      (spent : TokenSpent db.tokens tokens r.tokenId (target - r.preConsumed)) :
      Effect db (.reserve requestId user target) ({ db.setUsed r.userSubscriptionId sub
            (clampUsed (sub.amountUsed + (target - r.preConsumed))) with tokens }.saveRecord i
          { r with
            preConsumed := target
            tokenConsumed := if r.tokenId = 0 then r.tokenConsumed else
              r.tokenConsumed + (target - r.preConsumed) })
  | intended (requestId : String) (user : ℕ) (actual : ℤ) (i : ℕ) (r : PreConsumeRecord)
      (row : RecordOf db requestId user i r) (status : r.status = .consumed) (nonneg : 0 ≤ actual) :
      Effect db (.settleIntent requestId user actual)
        (db.saveRecord i { r with actualQuota := actual, status := .settling })
  | settled (requestId : String) (user : ℕ) (actual : ℤ) (i : ℕ) (r : PreConsumeRecord)
      (sub : UserSubscription) (subDelta wallet : ℤ) (users : Table User) (tokens : Table Token)
      (row : RecordOf db requestId user i r) (status : r.status = .settling)
      (amount : r.actualQuota = actual)
      (get : db.subscriptions.get? r.userSubscriptionId = some sub)
      (split : Settlement r sub actual subDelta wallet)
      (paid : WalletSpent db.users users user wallet)
      (spent : TokenSpent db.tokens tokens r.tokenId (actual - r.preConsumed)) :
      Effect db (.settleCommit requestId user actual)
        ({ db.setUsed r.userSubscriptionId sub (clampUsed (sub.amountUsed + subDelta)) with
            users, tokens }.saveRecord i
          { r with
            status := .settled
            walletConsumed := wallet
            tokenConsumed := if r.tokenId = 0 then r.tokenConsumed else actual })
  | released (requestId : String) (user : ℕ) (i : ℕ) (r : PreConsumeRecord)
      (sub : UserSubscription) (tokens : Table Token) (row : RecordOf db requestId user i r)
      (status : r.status = .consumed)
      (get : db.subscriptions.get? r.userSubscriptionId = some sub)
      (version : sub.quotaVersion = r.reservedVersion)
      (fits : 0 < sub.amountTotal → clampUsed (sub.amountUsed - r.preConsumed) ≤ sub.amountTotal)
      (spent : TokenSpent db.tokens tokens r.tokenId (-r.tokenConsumed)) :
      Effect db (.refund requestId user)
        ({ db.setUsed r.userSubscriptionId sub (clampUsed (sub.amountUsed - r.preConsumed)) with
            tokens }.saveRecord i { r with status := .refunded, tokenConsumed := 0 })
  | forgotten (requestId : String) (user : ℕ) (i : ℕ) (r : PreConsumeRecord)
      (sub : UserSubscription) (tokens : Table Token) (row : RecordOf db requestId user i r)
      (status : r.status = .consumed)
      (get : db.subscriptions.get? r.userSubscriptionId = some sub)
      (version : sub.quotaVersion ≠ r.reservedVersion)
      (spent : TokenSpent db.tokens tokens r.tokenId (-r.tokenConsumed)) :
      Effect db (.refund requestId user)
        ({ db with tokens }.saveRecord i { r with status := .refunded, tokenConsumed := 0 })

/-! ## Inversion of the transactions -/

theorem postConsume_eq_ok {id : ℕ} {delta : ℤ}
    (h : postConsumeUserSubscriptionDeltaTx db id delta = .ok db') :
    ∃ sub, db.subscriptions.get? id = some sub ∧
      (0 < sub.amountTotal → clampUsed (sub.amountUsed + delta) ≤ sub.amountTotal) ∧
      db' = db.setUsed id sub (clampUsed (sub.amountUsed + delta)) := by
  simp only [postConsumeUserSubscriptionDeltaTx, eq_ok] at h
  obtain ⟨sub, hsub, -, hft, rfl⟩ := h
  exact ⟨sub, hsub, by omega, rfl⟩

theorem mutate_eq_ok {fn : Db → PreConsumeRecord → Except Failure (PreConsumeRecord × Db)}
    (h : mutateSubscriptionBilling requestId user fn db = .ok (result, db')) :
    ∃ i r r' db₁, RecordOf db requestId user i r ∧ fn db r = .ok (r', db₁) ∧
      db' = db₁.saveRecord i r' := by
  simp only [mutateSubscriptionBilling, eq_ok] at h
  obtain ⟨_, -, ⟨i, r⟩, hr, ⟨r', db₁⟩, hfn, -, rfl⟩ := h
  obtain ⟨hg, hreq, hown, hman⟩ := first?_eq_some hr
  exact ⟨i, r, r', db₁, ⟨hr, hg, hreq, hown, hman⟩, hfn, rfl⟩

/-- A record written back as it was changes nothing. -/
theorem saveRecord_self {i : ℕ} {r : PreConsumeRecord} (h : db.records.get? i = some r) :
    db.saveRecord i r = db := by
  rw [Db.saveRecord, Table.modify_eq_self h rfl]

theorem mem_activeSubscriptions {now : ℤ} {p : ℕ × UserSubscription}
    (h : p ∈ db.activeSubscriptions user now) : db.subscriptions.get? p.1 = some p.2 := by
  rw [Db.activeSubscriptions, mem_insertionSort] at h
  exact exists_get?_of_mem (mem_filter.1 h).1

theorem nodup_activeSubscriptions (db : Db) (user : ℕ) (now : ℤ) :
    ((db.activeSubscriptions user now).map Prod.fst).Nodup := by
  refine ((perm_insertionSort _ _).map Prod.fst).nodup_iff.2 ?_
  have hrs : (db.subscriptions.rows.map Prod.fst).Nodup :=
    db.subscriptions.sorted.imp fun h => Nat.ne_of_lt h
  exact hrs.sublist (filter_sublist.map _)

/-- The loop over the candidates resets some subscriptions and charges one. -/
theorem consumeFirst_eq_ok {subs : List (ℕ × UserSubscription)} {result : PreConsumeResult}
    (hnd : (subs.map Prod.fst).Nodup) (hg : ∀ p ∈ subs, db.subscriptions.get? p.1 = some p.2)
    (h : consumeFirst env requestId user amount subs db = .ok (result, db')) :
    result.preConsumed = amount ∧ ∃ db₁ sub, Resets db db₁ ∧
      db₁.subscriptions.get? result.userSubscriptionId = some sub ∧
      (0 < sub.amountTotal → sub.amountUsed + amount ≤ sub.amountTotal) ∧
      db' = { db₁.setUsed result.userSubscriptionId sub (sub.amountUsed + amount) with
        records := db₁.records.insert
          (.consumed requestId user result.userSubscriptionId amount) } := by
  induction subs generalizing db with
  | nil => simp [consumeFirst] at h
  | cons p rest ih =>
    obtain ⟨id, candidate⟩ := p
    simp only [consumeFirst, eq_ok] at h
    obtain ⟨_, -, sub, hsub, -, h⟩ := h
    rw [map_cons, nodup_cons] at hnd
    have hcan : db.subscriptions.get? id = some candidate := hg _ mem_cons_self
    have hres : ResetStep db (db.saveSubscription id sub) :=
      .mk id candidate sub hcan (maybeReset_renewed sub hsub)
    split at h
    · -- The candidate has not enough quota left, and the others are as they were.
      have hr : ∀ p ∈ rest, (db.saveSubscription id sub).subscriptions.get? p.1 = some p.2 := by
        intro p hp
        have hne : p.1 ≠ id := by
          rintro rfl
          exact hnd.1 (List.mem_map.2 ⟨p, hp, rfl⟩)
        rw [Db.saveSubscription, get?_modify_of_ne _ _ hne]
        exact hg p (mem_cons_of_mem _ hp)
      obtain ⟨hamt, db₁, sub', hrese, hcha⟩ := ih hnd.2 hr h
      exact ⟨hamt, db₁, sub', .head hres hrese, hcha⟩
    · obtain ⟨⟩ := pure_eq_ok.1 h
      refine ⟨rfl, _, sub, .single hres, ?_, by omega, rfl⟩
      rw [Db.saveSubscription, get?_modify_self, hcan]
      rfl

/-! ## The effect of an operation -/

/-- What a pre-consumption can do: a repeated one only reads the record of the first, and another
one resets some subscriptions and charges one, together with the token. -/
inductive PreConsumed (requestId : String) (user tokenId : ℕ) (amount : ℤ)
    (walletOverflow : Bool) (db : Db) (result : PreConsumeResult) : Db → Prop
  | replayed (i : ℕ) (r : PreConsumeRecord) (found : db.findRecord requestId = some (i, r))
      (same : r.billingManaged = true ∧ r.userId = user ∧ r.tokenId = tokenId ∧
        r.walletOverflow = walletOverflow ∧ r.status = .consumed)
      (sub : UserSubscription) (get : db.subscriptions.get? r.userSubscriptionId = some sub)
      (subscription : result.userSubscriptionId = r.userSubscriptionId)
      (reserved : result.preConsumed = r.preConsumed) :
      PreConsumed requestId user tokenId amount walletOverflow db result db
  | reserved {db₁ : Db} (resets : Resets db db₁) (sub : UserSubscription) (tokens : Table Token)
      (fresh : db.findRecord requestId = none)
      (get : db₁.subscriptions.get? result.userSubscriptionId = some sub) (pos : 0 < amount)
      (fits : 0 < sub.amountTotal → sub.amountUsed + amount ≤ sub.amountTotal)
      (spent : subscriptionBillingTokenDelta db.tokens user tokenId amount true = .ok tokens)
      (taken : result.preConsumed = amount) :
      PreConsumed requestId user tokenId amount walletOverflow db result
        { db₁.setUsed result.userSubscriptionId sub (sub.amountUsed + amount) with
          tokens
          records := db₁.records.insert (.reservation requestId user result.userSubscriptionId
            tokenId amount walletOverflow sub.quotaVersion) }

section

variable {user tokenId : ℕ} {walletOverflow : Bool} {result : PreConsumeResult}
  (h : preConsumeSubscriptionBilling env requestId user tokenId amount walletOverflow db = .ok (result, db'))
include h

theorem preConsume_eq_ok :
    PreConsumed requestId user tokenId amount walletOverflow db result db' := by
  simp only [preConsumeSubscriptionBilling, bind_eq_ok] at h
  obtain ⟨_, -, h⟩ := h
  split at h
  · rename_i i existing hfd
    simp only [eq_ok, preConsumeUserSubscription, hfd] at h
    obtain ⟨hs, -, -, -, -, sub, hsub, rfl, rfl⟩ := h
    exact .replayed i existing hfd hs sub hsub rfl rfl
  · rename_i hfd
    simp only [preConsumeUserSubscription, hfd, eq_ok, Prod.exists] at h
    obtain ⟨out, _, ⟨-, -, hpos, -, hcon⟩, charged, hcha, tokens, htok, rfl, rfl⟩ := h
    obtain ⟨hamt, db₁, sub, hres, hg, hft, rfl⟩ := consumeFirst_eq_ok
      (nodup_activeSubscriptions db user env.now) (fun _ => mem_activeSubscriptions) hcon
    have hver : charged.quotaVersion = sub.quotaVersion := by
      simp only [Db.setUsed, Db.saveSubscription, get?_modify_self, hg, map_some,
        some.injEq] at hcha
      rw [← hcha]
    have hkt := hres.kept
    -- The update of the record concerns the inserted one only.
    have hins :
      (db₁.records.insert (.consumed requestId user out.userSubscriptionId amount)).modifyWhere
        (fun _ r => r.requestId = requestId)
        (PreConsumeRecord.manage tokenId amount walletOverflow charged.quotaVersion) =
        db₁.records.insert (.reservation requestId user out.userSubscriptionId tokenId amount
          walletOverflow sub.quotaVersion) := by
      have hold : ∀ i r, db₁.records.get? i = some r → ¬r.requestId = requestId := by
        rw [hkt.2.2]
        exact fun i r hr => first?_eq_none hfd hr
      rw [hver]
      exact modifyWhere_insert (p := fun _ (r : PreConsumeRecord) => r.requestId = requestId)
        rfl hold _
    simp only [hins]
    change subscriptionBillingTokenDelta db₁.tokens user tokenId amount true = .ok tokens at htok
    rw [hkt.2.1] at htok
    exact .reserved hres sub tokens hfd hg hpos hft htok hamt

theorem preConsume_effect :
    Effect db (.preConsume requestId user tokenId amount walletOverflow) db' := by
  cases preConsume_eq_ok h with
  | replayed => exact .idle _
  | reserved hres sub tokens hfr hg hpos hft hsp =>
    rw [← hres.kept.2.1] at hsp
    exact .reserved requestId user tokenId amount walletOverflow hres _ sub tokens
      (fun i r hr => first?_eq_none hfr hr) hg hpos hft (tokenSpent_of_delta hsp)

end

theorem reserve_effect {target : ℤ}
    (h : reserveSubscriptionBilling requestId user target db = .ok (result, db')) :
    Effect db (.reserve requestId user target) db' := by
  simp only [reserveSubscriptionBilling, eq_ok] at h
  obtain ⟨i, r, r', _, row, htx, rfl⟩ := mutate_eq_ok h.2
  simp only [reserveTx, eq_ok] at htx
  obtain ⟨hst, htx⟩ := htx
  split at htx
  · obtain ⟨⟩ := pure_eq_ok.1 htx
    rw [saveRecord_self row.get]
    exact .idle _
  · rename_i hmore
    simp only [eq_ok] at htx
    obtain ⟨sub, hsub, hver, _, hcon, tokens, htok, rfl, rfl⟩ := htx
    obtain ⟨_, hsub', hft, rfl⟩ := postConsume_eq_ok hcon
    obtain rfl := mem_unique hsub hsub'
    exact .raised requestId user target i r sub tokens row hst (by omega) hsub hver hft
      (tokenSpent_of_delta htok)

theorem settleIntent_effect
    (h : settleSubscriptionBillingIntent requestId user actual db = .ok (result, db')) :
    Effect db (.settleIntent requestId user actual) db' := by
  simp only [settleSubscriptionBillingIntent, eq_ok] at h
  obtain ⟨i, r, r', _, row, htx, rfl⟩ := mutate_eq_ok h.2
  unfold settleIntentTx at htx
  split at htx
  case h_3 => cases htx
  case h_4 hst =>
    obtain ⟨⟩ := pure_eq_ok.1 htx
    exact .intended requestId user actual i r row hst h.1
  -- The intent is recorded already.
  all_goals
    simp only [eq_ok] at htx
    obtain ⟨-, rfl, rfl⟩ := htx
    rw [saveRecord_self row.get]
    exact .idle _

theorem settleCommit_effect
    (h : settleSubscriptionBillingCommit env requestId user actual db = .ok (result, db')) :
    Effect db (.settleCommit requestId user actual) db' := by
  obtain ⟨i, r, r', _, row, htx, rfl⟩ := mutate_eq_ok h
  unfold settleCommitTx at htx
  split at htx
  · obtain ⟨⟩ := pure_eq_ok.1 htx
    rw [saveRecord_self row.get]
    exact .idle _
  · simp only [eq_ok, mapError_eq_ok] at htx
    obtain ⟨⟨hst, hact⟩, sub, hsub, -, _, hspl, -, users, hus, tokens, htok, rfl, rfl⟩ := htx
    have hset := settlement_of_split hspl
    exact .settled requestId user actual i r sub _ _ users tokens row hst hact hsub
      hset (walletSpent_of_charge hset.wallet_nonneg hus)
      (tokenSpent_of_delta htok)

theorem refund_effect (h : refundSubscriptionBilling requestId user db = .ok (result, db')) :
    Effect db (.refund requestId user) db' := by
  obtain ⟨i, r, r', _, row, htx, rfl⟩ := mutate_eq_ok h
  unfold refundTx at htx
  split at htx
  · obtain ⟨⟩ := pure_eq_ok.1 htx
    rw [saveRecord_self row.get]
    exact .idle _
  · simp only [eq_ok] at htx
    obtain ⟨hst, sub, hsub, _, hrel, tokens, htok, rfl, rfl⟩ := htx
    unfold releaseReservation at hrel
    split at hrel
    · rename_i hver
      obtain ⟨_, hsub', hft, rfl⟩ := postConsume_eq_ok hrel
      obtain rfl := mem_unique hsub hsub'
      exact .released requestId user i r sub tokens row hst hsub hver hft (tokenSpent_of_delta htok)
    · rename_i hver
      obtain rfl := pure_eq_ok.1 hrel
      exact .forgotten requestId user i r sub tokens row hst hsub hver (tokenSpent_of_delta htok)

/-- **Every transaction has one of the effects.** -/
theorem Op.effect (env : Env) (op : Op) (db : Db) : Effect db op (op.step env db) := by
  unfold Op.step
  cases hrun : op.run env db with
  | error => exact .idle op
  | ok db' =>
    simp only [Except.toOption, getD_some]
    cases op with
    | reset id plan =>
      simp only [Op.run, resetSubscription, eq_ok] at hrun
      obtain ⟨sub, hsub, sub', hsub', rfl⟩ := hrun
      exact .reset id plan (.mk id sub sub' hsub (maybeReset_renewed sub' hsub'))
    | preConsume =>
      obtain ⟨⟨result, db'⟩, hcom, rfl⟩ := map_eq_ok.1 hrun
      exact preConsume_effect hcom
    | reserve =>
      obtain ⟨⟨result, db'⟩, hcom, rfl⟩ := map_eq_ok.1 hrun
      exact reserve_effect hcom
    | settleIntent =>
      obtain ⟨⟨result, db'⟩, hcom, rfl⟩ := map_eq_ok.1 hrun
      exact settleIntent_effect hcom
    | settleCommit =>
      obtain ⟨⟨result, db'⟩, hcom, rfl⟩ := map_eq_ok.1 hrun
      exact settleCommit_effect hcom
    | refund =>
      obtain ⟨⟨_, _⟩, hcom, rfl⟩ := map_eq_ok.1 hrun
      exact refund_effect hcom

end LmmApi.Subscription
