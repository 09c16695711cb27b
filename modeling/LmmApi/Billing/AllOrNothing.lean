import LmmApi.Billing.Session

/-!
# A billing session is opened completely or not at all

`newBillingSession` tries one or two funding sources, each in several steps. Whatever fails on the
way, and whichever statement of the database it is, an error leaves every table as it was; and a
session that is returned has debited one source, and the token, by the amount it says.

The one exception is the repetition of a request that has already reserved: it debits nothing and
takes over the amount of the first reservation.
-/

namespace LmmApi.Billing

open Guarded Subscription Option Table

variable {env : CallEnv} {info : RelayInfo} {db db' : Db} {s : Session} {requested : ℤ}

/-! ## What a new session has done -/

/-- The session was paid from the wallet. -/
structure WalletDebited (info : RelayInfo) (requested : ℤ) (db : Db) (s : Session) (db' : Db) :
    Prop where
  source : ∃ w, s.funding = .wallet w
  amount : s.preConsumedQuota = requested
  wallet : WalletSpent db.users db'.users info.userId s.preConsumedQuota
  token : TokenCharged info db.tokens db'.tokens s.preConsumedQuota
  subscriptions : db'.subscriptions = db.subscriptions
  wallet_nonneg : 0 ≤ walletOf db'.users info.userId
  token_nonneg : 0 < s.preConsumedQuota → info.UsesToken → info.tokenUnlimited = false →
    (∀ t, db.tokens.get? info.tokenId = some t → t.unlimitedQuota = false) →
    0 ≤ remainOf db'.tokens info.tokenId

/-- The session was paid from a subscription, after resets that were due. -/
structure SubscriptionDebited (info : RelayInfo) (requested : ℤ) (db : Db) (s : Session)
    (db' : Db) : Prop where
  amount : s.preConsumedQuota = max 1 requested
  users : db'.users = db.users
  token : TokenCharged info db.tokens db'.tokens s.preConsumedQuota
  subscription : ∃ f sub db₁, s.funding = .subscription f ∧ Resets db db₁ ∧
    db₁.subscriptions.get? f.subscriptionId = some sub ∧
    (0 < sub.amountTotal → sub.amountUsed + s.preConsumedQuota ≤ sub.amountTotal) ∧
    db'.subscriptions =
      (db₁.setUsed f.subscriptionId sub (sub.amountUsed + s.preConsumedQuota)).subscriptions
  token_nonneg : info.UsesToken →
    (∀ t, db.tokens.get? info.tokenId = some t → t.unlimitedQuota = false) →
    0 ≤ remainOf db'.tokens info.tokenId

/-- The request had a reservation already, and the session takes it over. -/
structure TakenOver (info : RelayInfo) (db : Db) (s : Session) (db' : Db) : Prop where
  record : ∃ i r, db.findRecord info.requestId = some (i, r) ∧ r.userId = info.userId ∧
    s.preConsumedQuota = r.preConsumed
  unchanged : db' = db

/-- Every active subscription of a user allows that its wallet pays when the quota is exhausted. -/
def AllowsOverflow (env : CallEnv) (user : ℕ) (db : Db) : Prop :=
  ∀ id sub, db.subscriptions.get? id = some sub → ActiveFor user env.overflowAt sub →
    sub.allowWalletOverflow = true

/-- What the opening of a session has done. -/
inductive Opened (env : CallEnv) (info : RelayInfo) (requested : ℤ) (db : Db) (s : Session)
    (db' : Db) : Prop
  | wallet (debited : WalletDebited info requested db s db')
      (overflow : normalizeBillingPreference info.billingPreference = .subscriptionFirst →
        AllowsOverflow env info.userId db)
  | subscription (fresh : db.findRecord info.requestId = none)
      (debited : SubscriptionDebited info requested db s db')
  | takenOver (taken : TakenOver info db s db')

/-- The result of an opening: an error leaves the tables as they were, and a session has the
property `P`. -/
def AllOrNothing (db : Db) (P : Session → Db → Prop) (r : Except ApiError Session × Db) : Prop :=
  match r with
  | (.error _, db') => db' = db
  | (.ok s, db') => P s db'

theorem AllOrNothing.mono {P Q : Session → Db → Prop} {r : Except ApiError Session × Db}
    (h : AllOrNothing db P r) (himp : ∀ s db', P s db' → Q s db') : AllOrNothing db Q r := by
  obtain ⟨r | s, db'⟩ := r
  · exact h
  · exact himp s db' h

/-- A second source is tried in the tables that the first has left, which are the old ones. -/
theorem AllOrNothing.orIfInsufficient {P : Session → Db → Prop}
    {first : Except ApiError Session × Db} {second : ApiError → Db → Except ApiError Session × Db}
    (h₁ : AllOrNothing db P first) (h₂ : ∀ e, AllOrNothing db P (second e db)) :
    AllOrNothing db P (orIfInsufficient first second) := by
  obtain ⟨e | s, db'⟩ := first
  · obtain rfl : db' = db := h₁
    unfold Billing.orIfInsufficient
    dsimp only
    split
    · exact h₂ e
    · exact rfl
  · exact h₁

/-! ## Wallets -/

/-- A reservation on a wallet that was accepted. -/
theorem walletFunding_preConsume {w w' : WalletFunding} {users users' : Table User}
    (hw : w.consumed = 0) (hreq : 0 ≤ requested)
    (h : w.preConsume env requested users = .ok (w', users')) :
    w'.userId = w.userId ∧ w'.consumed = requested ∧ WalletSpent users users' w.userId requested ∧
      (0 < requested → 0 ≤ walletOf users' w.userId) := by
  unfold WalletFunding.preConsume at h
  split at h
  · rename_i hfr
    obtain ⟨⟩ := pure_eq_ok.1 h
    have hz : requested = 0 := by omega
    subst hz
    exact ⟨rfl, hw, walletSpent_zero _ _, fun h => absurd h (lt_irrefl _)⟩
  · simp only [bind_eq_ok, mapError_eq_ok, Prod.exists] at h
    obtain ⟨_, _, hrsv, h⟩ := h
    split at h
    · rename_i hacc
      obtain ⟨⟩ := pure_eq_ok.1 h
      exact ⟨rfl, rfl, (tryReserveUserQuota_eq_ok hrsv).2 hacc⟩
    · split at h
      · simp only [bind_eq_ok] at h
        obtain ⟨-, -, -, -, h⟩ := h
        cases h
      · cases h

theorem walletFunding_settle {w : WalletFunding} {users users' : Table User} {delta : ℤ}
    (h : w.settle env delta users = .ok users') : WalletSpent users users' w.userId delta := by
  unfold WalletFunding.settle at h
  split_ifs at h with hz hpos
  · obtain rfl := pure_eq_ok.1 h
    rw [hz]
    exact walletSpent_zero _ _
  · exact walletSpent_of_decrease h
  · have hsp := walletSpent_of_increase h
    rwa [neg_neg] at hsp

/-- After a refused wallet the token has its reservation back. -/
theorem rollbackToken_eq {tokens tokens' : Table Token}
    (h : TokenReserved info requested tokens tokens') (hundo : env.fault .undoToken = none) :
    rollbackToken env info requested tokens' = tokens := by
  unfold rollbackToken
  split
  · rename_i hpos
    rw [h.undo hpos.1 hpos.2 hundo]
  · rename_i hn
    cases h with
    | untouched => rfl
    | taken _ _ pos uses => exact absurd ⟨pos, uses⟩ hn

/-- The session that has just reserved `quota` on a wallet. -/
def Session.onWallet (info : RelayInfo) (w : WalletFunding) (quota : ℤ) : Session where
  info
  funding := .wallet w
  preConsumedQuota := quota
  tokenConsumed := quota

/-- A session that was opened on a wallet. -/
structure WalletOpening (info : RelayInfo) (w₀ : WalletFunding) (quota : ℤ) (db : Db) (s : Session)
    (db' : Db) : Prop where
  session : ∃ w, s = .onWallet info w quota ∧ w.userId = w₀.userId ∧ w.consumed = quota
  wallet : WalletSpent db.users db'.users w₀.userId quota
  wallet_nonneg : 0 < quota → 0 ≤ walletOf db'.users w₀.userId
  token : TokenReserved info quota db.tokens db'.tokens
  subscriptions : db'.subscriptions = db.subscriptions

theorem preConsumeWallet_opening (env : CallEnv) (info : RelayInfo) (db : Db) (w₀ : WalletFunding)
    (hw₀ : w₀.consumed = 0) (hreq : 0 ≤ requested) :
    match preConsumeWallet env info w₀ requested db with
    | (.error _, db') => env.fault .undoToken = none → db' = db
    | (.ok s, db') => WalletOpening info w₀ requested db s db' := by
  have hcon : (if 0 < requested then requested else 0) = requested := by split <;> omega
  unfold preConsumeWallet
  rw [hcon]
  cases htok : (if 0 < requested then preConsumeTokenQuota env info requested db.tokens
      else .ok db.tokens) with
  | error => exact fun _ => rfl
  | ok tokens =>
    have hres : TokenReserved info requested db.tokens tokens := by
      split at htok
      · exact preConsumeTokenQuota_eq_ok htok
      · cases htok
        exact .untouched (.inr (by omega))
    cases hwal : w₀.preConsume env requested db.users with
    | error =>
      intro hundo
      rw [rollbackToken_eq hres hundo]
    | ok out =>
      obtain ⟨hu, hamt, hsp, hnn⟩ := walletFunding_preConsume hw₀ hreq hwal
      exact ⟨⟨out.1, rfl, hu, hamt⟩, hsp, hnn, hres, rfl⟩

/-- The quota that `tryWallet` looks at is the wallet's. -/
theorem walletOf_pos {users : Table User} {id : ℕ} {st : Statement} {quota : ℤ}
    (h : getUserQuota env st users id = .ok quota) (hpos : 0 < quota) : 0 < walletOf users id := by
  simp only [getUserQuota, eq_ok] at h
  obtain ⟨-, -, rfl⟩ := h
  cases hlv : liveUser users id with
  | none =>
    rw [hlv, elim_none] at hpos
    exact absurd hpos (lt_irrefl _)
  | some =>
    rw [hlv, elim_some] at hpos
    rwa [walletOf, (liveUser_eq_some.1 hlv).1, elim_some]

theorem tryWallet_allOrNothing (hreq : 0 ≤ requested) (hundo : env.fault .undoToken = none) :
    AllOrNothing db (WalletDebited info requested db) (tryWallet env info requested db) := by
  unfold tryWallet
  split
  · exact rfl
  · rename_i userQuota hquo
    dsimp only
    split_ifs with hmin hpos hcov
    · exact rfl
    · exact rfl
    · exact rfl
    · have hope := preConsumeWallet_opening env info db ⟨info.userId, info.minimumQuota, 0⟩ rfl hreq
      generalize preConsumeWallet env info ⟨info.userId, info.minimumQuota, 0⟩ requested db = r
        at hope ⊢
      obtain ⟨e | s, _⟩ := r
      · exact hope hundo
      · obtain ⟨w, rfl, -⟩ := hope.session
        refine ⟨⟨w, rfl⟩, rfl, hope.wallet, hope.token.charged, hope.subscriptions, ?_,
          hope.token.nonneg⟩
        rcases hreq.eq_or_lt with hz | hdeb
        · -- A session of nothing leaves the positive balance that was looked at.
          rw [hope.wallet info.userId, ← hz, ite_self, sub_zero]
          exact (walletOf_pos hquo (not_le.1 hpos)).le
        · exact hope.wallet_nonneg hdeb

/-! ## Subscriptions -/

/-- A reservation of a transaction on a limited token leaves it nonnegative. -/
theorem remainOf_nonneg_of_delta {tokens tokens' : Table Token} {user token : ℕ} {amount : ℤ}
    (htok : token ≠ 0) (hr : ∀ t, tokens.get? token = some t → t.unlimitedQuota = false)
    (h : subscriptionBillingTokenDelta tokens user token amount true = .ok tokens') :
    0 ≤ remainOf tokens' token := by
  rw [tokenSpent_of_delta h token, if_pos ⟨rfl, htok⟩]
  unfold subscriptionBillingTokenDelta at h
  rw [if_neg htok] at h
  simp only [orFail_bind, require_bind] at h
  obtain ⟨row, hg, -, hcov, -⟩ := h
  have hlim := hr row hg
  rw [remainOf, hg, elim_some]
  by_contra hneg
  exact hcov ⟨trivial, hlim, by omega⟩

theorem subConsume_eq (requested : ℤ) : subConsume requested = max 1 requested := by
  unfold subConsume
  split <;> omega

/-- The token of a subscription request is the one that the request is charged on. -/
theorem tokenCharged_of_spent {tokens tokens' : Table Token} {amount : ℤ}
    (hid : info.UsesToken → info.tokenId ≠ 0)
    (h : TokenSpent tokens tokens' (if info.UsesToken then info.tokenId else 0) amount) :
    TokenCharged info tokens tokens' amount := by
  intro k
  rw [h k]
  by_cases hus : info.UsesToken
  · have hiff : (k = info.tokenId ∧ k ≠ 0) ↔ k = info.tokenId :=
      ⟨And.left, fun hk => ⟨hk, hk ▸ hid hus⟩⟩
    simp only [hus, if_true, and_true, hiff]
  · simp only [hus, if_false, and_false]
    rw [if_neg fun h => h.2 h.1]

theorem trySubscription_allOrNothing {preference : BillingPreference} :
    AllOrNothing db (Opened env info requested db)
      (trySubscription env info preference requested db) := by
  unfold trySubscription
  split
  · exact rfl
  · rename_i hmis
    have hid : info.UsesToken → info.tokenId ≠ 0 := fun hus hz => hmis ⟨hus, hz⟩
    unfold preConsumeSubscription
    split
    · exact rfl
    · rename_i f db' hcon
      simp only [SubscriptionFunding.preConsume, mapError_eq_ok, eq_ok, Prod.exists] at hcon
      obtain ⟨-, -, _, _, hcon, rfl, rfl⟩ := hcon
      cases preConsume_eq_ok hcon with
      | replayed i r found same _ _ _ reserved =>
        exact .takenOver ⟨⟨i, r, found, same.2.1, reserved⟩, rfl⟩
      | reserved resets sub _ fresh get _ fits spent taken =>
        have htok := tokenCharged_of_spent hid (tokenSpent_of_delta spent)
        rw [← taken] at fits htok
        refine .subscription fresh ⟨taken.trans (subConsume_eq requested), resets.kept.1, htok,
          ⟨_, sub, _, rfl, resets, get, fits, ?_⟩, ?_⟩
        · rw [taken]
        · intro hus hr
          rw [if_pos hus] at spent
          exact remainOf_nonneg_of_delta (hid hus) hr spent

/-! ## The choice -/

theorem not_active_of_hasActive (h : hasActiveUserSubscription env info.userId db = .ok false) :
    AllowsOverflow env info.userId db := by
  simp only [hasActiveUserSubscription, bind_eq_ok, pure_eq_ok, decide_eq_false_iff_not,
    any_iff] at h
  obtain ⟨-, -, -, -, hn⟩ := h
  intro id sub hg hact
  have hends : env.checkedAt < sub.endTime := env.clock.trans_lt hact.2.2
  exact absurd ⟨id, sub, hg, hact.1, hact.2.1, hends⟩ hn

theorem allowsOverflow_of_check
    (h : userActiveSubscriptionsAllowWalletOverflow env info.userId db = .ok true) :
    AllowsOverflow env info.userId db := by
  simp only [userActiveSubscriptionsAllowWalletOverflow, bind_eq_ok, pure_eq_ok,
    decide_eq_true_eq, any_iff] at h
  obtain ⟨-, -, -, -, hn⟩ := h
  intro id sub hg hact
  by_contra hstr
  exact hn ⟨id, sub, hg, hact, Bool.eq_false_iff.2 hstr⟩

theorem chooseFunding_allOrNothing (hreq : 0 ≤ requested) (hundo : env.fault .undoToken = none) :
    AllOrNothing db (Opened env info requested db) (chooseFunding env info requested db) := by
  have hwal (hove : normalizeBillingPreference info.billingPreference =
      .subscriptionFirst → AllowsOverflow env info.userId db) :
      AllOrNothing db (Opened env info requested db) (tryWallet env info requested db) :=
    (tryWallet_allOrNothing hreq hundo).mono fun s db' h => .wallet h hove
  unfold chooseFunding
  dsimp only
  split
  · exact trySubscription_allOrNothing
  · rename_i honly
    exact hwal fun h => nomatch honly.symm.trans h
  · rename_i hfst
    refine .orIfInsufficient (hwal fun h => nomatch hfst.symm.trans h) fun e => ?_
    exact trySubscription_allOrNothing
  · split
    · exact rfl
    · rename_i hn
      exact hwal fun _ => not_active_of_hasActive hn
    · refine .orIfInsufficient trySubscription_allOrNothing fun e => ?_
      split
      · exact rfl
      · rename_i hall
        exact hwal fun _ => allowsOverflow_of_check hall
      · exact rfl

/-- **A session is opened completely or not at all.** An error leaves the tables as they were; a
session has debited one source and the token by its amount, unless it repeats a request. -/
theorem newBillingSession_allOrNothing (env : CallEnv) (info : RelayInfo) (requested : ℤ) (db : Db)
    (hreq : 0 ≤ requested) (hundo : env.fault .undoToken = none) :
    AllOrNothing db (Opened env info requested db) (newBillingSession env info requested db) := by
  unfold newBillingSession
  split
  · exact rfl
  · exact chooseFunding_allOrNothing hreq hundo

/-! ## A request and its repetition -/

/-- A user with a wallet, a token and a subscription. -/
def sampleTables : Db where
  users := Table.empty.insert ⟨100, 1, userStatusEnabled, false⟩
  tokens := Table.empty.insert ⟨1, 50, 0, false, false⟩
  subscriptions := Table.empty.insert
    { userId := 1, planId := 1, amountTotal := 100, amountUsed := 0, quotaVersion := 0,
      startTime := 0, endTime := 10000, status := .active, lastResetTime := 0,
      nextResetTime := 0, allowWalletOverflow := true }
  records := Table.empty

/-- A call at a time, in which no statement fails. -/
def faultless (now : ℤ) : CallEnv where
  database := ⟨now, fun _ => some ⟨"never", 0⟩, 0⟩
  checkedAt := now
  overflowAt := now
  clock := le_rfl
  tokenKeys _ := "key"
  formatQuota _ := ""
  fault _ := none

/-- A request of the user with the preference `preference`. -/
def sampleInfo (preference : String) : RelayInfo where
  userId := 1
  tokenId := 1
  tokenKey := "key"
  tokenUnlimited := false
  isPlayground := false
  isAssistant := false
  requestId := "request"
  isTask := false
  billingPreference := preference
  minimumQuota := 0

/-- The amount of a session that was opened. -/
def openedQuota (r : Except ApiError Session × Db) : Option ℤ :=
  r.1.toOption.map Session.preConsumedQuota

/-- The balances after an opening: the wallet, the token and the used amount of the subscription. -/
def balances (r : Except ApiError Session × Db) : ℤ × ℤ × Option ℤ :=
  (walletOf r.2.users 1, remainOf r.2.tokens 1,
    (r.2.subscriptions.get? 1).map UserSubscription.amountUsed)

/-- A request that its wallet pays for. -/
def walletOpening : Except ApiError Session × Db :=
  newBillingSession (faultless 500) (sampleInfo "wallet_first") 40 sampleTables

theorem newBillingSession_allOrNothing_wallet :
    openedQuota walletOpening = some 40 ∧ balances walletOpening = (60, 10, some 0) ∧
      AllOrNothing sampleTables
        (Opened (faultless 500) (sampleInfo "wallet_first") 40 sampleTables) walletOpening :=
  ⟨by decide +kernel, by decide +kernel, newBillingSession_allOrNothing (faultless 500)
    (sampleInfo "wallet_first") 40 sampleTables (by decide) rfl⟩

/-- A request that reserves 10 on the subscription. -/
def firstOpening : Except ApiError Session × Db :=
  newBillingSession (faultless 500) (sampleInfo "subscription_first") 10 sampleTables

/-- The same request again, with an estimate of 25. -/
def secondOpening : Except ApiError Session × Db :=
  newBillingSession (faultless 500) (sampleInfo "subscription_first") 25 firstOpening.2

/-- The repeated request gets a session of 10, for which nothing more is debited. -/
theorem newBillingSession_repeated :
    openedQuota firstOpening = some 10 ∧ balances firstOpening = (100, 40, some 10) ∧
      openedQuota secondOpening = some 10 ∧ balances secondOpening = (100, 40, some 10) := by
  decide +kernel

end LmmApi.Billing
