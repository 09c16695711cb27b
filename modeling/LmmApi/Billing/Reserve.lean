import LmmApi.Subscription.Effect

/-!
# Reservations on wallets and tokens

The statements by which a request moves the quota of a user and of an API token outside of a
transaction: conditional updates that reserve an amount only if the row covers it, and
unconditional ones that settle or undo a reservation.

Every statement can also fail for a reason that the tables do not show, such as a lost connection;
it then has no effect. `CallEnv.fault` says which statements of a call do.
-/

namespace LmmApi.Billing

open Guarded Subscription Option Table

/-- A database statement of a billing call. -/
inductive Statement
  /-- `GetUserQuota` for the minimum balance of web drawing. -/
  | readMinimum
  /-- `HasActiveUserSubscription`. -/
  | hasActive
  /-- `UserActiveSubscriptionsAllowWalletOverflow`. -/
  | allowOverflow
  /-- `GetUserQuota` before a wallet is tried. -/
  | readQuota
  /-- `GetRelayBillingToken`. -/
  | readToken
  /-- The update of `TryReserveTokenQuota`. -/
  | reserveToken
  /-- The update of `reserveUserQuotaDBWithMinimum`. -/
  | reserveWallet
  /-- `currentWalletQuota`. -/
  | currentQuota
  /-- `GetUserQuota` after a refused reservation. -/
  | readBalance
  /-- `GetUserQuota` for the text of an error. -/
  | readShown
  /-- The transaction of `PreConsumeSubscriptionBilling`. -/
  | subscription
  /-- The update of a wallet by a settlement, a later reservation or a refund. -/
  | moveWallet
  /-- The update of a token by a settlement or a refund. -/
  | moveToken
  /-- The update that takes a reservation of a wallet back. -/
  | undoWallet
  /-- The update that takes a reservation of a token back. -/
  | undoToken
  /-- The first transaction of `SettleSubscriptionBilling`. -/
  | settleIntent
  /-- The second transaction of `SettleSubscriptionBilling`. -/
  | settleCommit

/-- What a billing call reads besides the tables: the database's time and plans, the application's
clock at the two looks at the active subscriptions, the keys of the tokens, how quotas are shown,
and the statements that fail. -/
structure CallEnv where
  database : Env
  checkedAt : ℤ
  overflowAt : ℤ
  clock : checkedAt ≤ overflowAt
  tokenKeys : ℕ → String
  formatQuota : ℤ → String
  fault : Statement → Option Failure

/-- Reach the database with a statement. -/
def CallEnv.reach (env : CallEnv) (st : Statement) : Except Failure Unit :=
  match env.fault st with
  | none => .ok ()
  | some e => .error e

/-- The part of `RelayInfo` that billing reads, with the minimum balance that the request context
demands. -/
structure RelayInfo where
  userId : ℕ
  tokenId : ℕ
  tokenKey : String
  tokenUnlimited : Bool
  isPlayground : Bool
  isAssistant : Bool
  requestId : String
  /-- The request has a `TaskRelayInfo`. -/
  isTask : Bool
  billingPreference : String
  minimumQuota : ℤ
  deriving DecidableEq

/-- The request is charged on its token: it is neither a playground nor an assistant request. -/
def RelayInfo.UsesToken (info : RelayInfo) : Prop :=
  info.isPlayground = false ∧ info.isAssistant = false
  deriving Decidable

variable (env : CallEnv)

/-! ## Wallets -/

variable (st : Statement) (users : Table User) (tokens : Table Token) (id : ℕ) (quota : ℤ)

/-- A user that is not deleted. -/
def liveUser : Option User := (users.get? id).filter fun u => u.deleted = false

/-- `GetUserQuota` from the database; the quota of a missing user is 0. -/
def getUserQuota : Except Failure ℤ := do
  env.reach st
  return (liveUser users id).elim 0 User.quota

def currentWalletQuota : Except Failure ℤ := do
  env.reach .currentQuota
  let user ← orFail (liveUser users id) .recordNotFound
  return user.quota

/-- `reserveUserQuotaDBWithMinimum`. A conditional update that affects no row is looked at once
more, to tell a wallet that does not cover the amount from one that is missing or out of range. -/
def reserveUserQuotaDBWithMinimum (amount minimum : ℤ) : Except Failure (Bool × Table User) := do
  env.reach .reserveWallet
  match updateWalletQuotaByDelta users id
      (fun u => u.deleted = false ∧ amount ≤ u.quota ∧ minimum ≤ u.quota) (-amount)
      (some (Failure.walletQuota (-amount))) none with
  | .ok users' => return (true, users')
  | .error (some e) => .error e
  | .error none =>
    let current ← currentWalletQuota env users id
    require .walletQuotaOutOfRange (ValidWalletQuota current)
    return (false, users)

/-- `TryReserveUserQuotaWithMinimum`: whether the wallet covered the amount. -/
def tryReserveUserQuotaWithMinimum (amount minimum : ℤ) : Except Failure (Bool × Table User) := do
  require (.other "quota 不能为负数！") (0 ≤ amount)
  require (.other "minimum quota must not be negative") (0 ≤ minimum)
  require (.walletQuota amount) (ValidWalletQuota amount)
  require (.walletQuota minimum) (ValidWalletQuota minimum)
  if amount = 0 then
    let current ← currentWalletQuota env users id
    if minimum = 0 then
      return (true, users)
    else
      require .walletQuotaOutOfRange (ValidWalletQuota current)
      return (minimum ≤ current, users)
  else
    reserveUserQuotaDBWithMinimum env users id amount minimum

def increaseUserQuota : Except Failure (Table User) := do
  require (.other "quota 不能为负数！") (0 ≤ quota)
  require (.walletQuota quota) (ValidWalletQuota quota)
  env.reach st
  applyWalletQuotaDelta users id quota

/-- `DecreaseUserQuota`, which may leave a debt. -/
def decreaseUserQuota : Except Failure (Table User) := do
  require (.other "quota 不能为负数！") (0 ≤ quota)
  require (.walletQuota quota) (ValidWalletQuota quota)
  env.reach st
  applyWalletQuotaDelta users id (-quota)

/-! ## Tokens -/

/-- A token that is not deleted. -/
def liveToken : Option Token := (tokens.get? id).filter fun t => t.deleted = false

def persistTokenQuotaDelta (delta : ℤ) : Except Failure (Table Token) := do
  env.reach st
  let _ ← orFail (liveToken tokens id) .recordNotFound
  return tokens.modify id (Token.spend (-delta))

def increaseTokenQuota : Except Failure (Table Token) := do
  require (.other "quota 不能为负数！") (0 ≤ quota)
  persistTokenQuotaDelta env st tokens id quota

def decreaseTokenQuota : Except Failure (Table Token) := do
  require (.other "quota 不能为负数！") (0 ≤ quota)
  persistTokenQuotaDelta env st tokens id (-quota)

def reserveTokenQuotaDB : Except Failure (Bool × Table Token) := do
  env.reach .reserveToken
  if ((liveToken tokens id).any fun t => quota ≤ t.remainQuota) = true then
    return (true, tokens.modify id (Token.spend quota))
  else return (false, tokens)

def tryReserveTokenQuota (unlimited : Bool) : Except Failure (Bool × Table Token) := do
  require (.other "quota 不能为负数！") (0 ≤ quota)
  if quota = 0 then return (true, tokens)
  else if unlimited = true then
    let tokens' ← persistTokenQuotaDelta env .reserveToken tokens id (-quota)
    return (true, tokens')
  else reserveTokenQuotaDB env tokens id quota

def getRelayBillingToken (key : String) : Except Failure Token := do
  require (.other "token invalid") (0 < id ∧ key ≠ "")
  env.reach .readToken
  require .recordNotFound (env.tokenKeys id = key)
  orFail (liveToken tokens id) .recordNotFound

def preConsumeTokenQuota (info : RelayInfo) (quota : ℤ) (tokens : Table Token) :
    Except Failure (Table Token) := do
  require (.other "quota 不能为负数！") (0 ≤ quota)
  if ¬info.UsesToken then return tokens
  else
    let token ← getRelayBillingToken env tokens info.tokenId info.tokenKey
    let out ← tryReserveTokenQuota env tokens info.tokenId quota
      (info.tokenUnlimited || token.unlimitedQuota)
    let remain := env.formatQuota token.remainQuota
    let need := env.formatQuota quota
    require (.other s!"token quota is not enough, token remain quota: {remain}, need quota: {need}")
      (out.1 = true)
    return out.2

/-! ## What the statements do -/

variable {env} {users users' : Table User} {tokens tokens' : Table Token} {st : Statement} {id : ℕ}
  {quota : ℤ}

theorem reach_eq_ok {u : Unit} : env.reach st = .ok u ↔ env.fault st = none := by
  unfold CallEnv.reach
  split <;> simp_all

theorem liveUser_eq_some {u : User} :
    liveUser users id = some u ↔ users.get? id = some u ∧ u.deleted = false := by
  simp [liveUser, filter_eq_some_iff]

theorem liveToken_eq_some {t : Token} :
    liveToken tokens id = some t ↔ tokens.get? id = some t ∧ t.deleted = false := by
  simp [liveToken, filter_eq_some_iff]

theorem walletSpent_of_increase (h : increaseUserQuota env st users id quota = .ok users') :
    WalletSpent users users' id (-quota) := by
  simp only [increaseUserQuota, bind_eq_ok] at h
  obtain ⟨-, -, -, -, -, -, h⟩ := h
  exact walletSpent_of_delta h

theorem walletSpent_of_decrease (h : decreaseUserQuota env st users id quota = .ok users') :
    WalletSpent users users' id quota := by
  simp only [decreaseUserQuota, bind_eq_ok] at h
  obtain ⟨-, -, -, -, -, -, h⟩ := h
  have hsp := walletSpent_of_delta h
  rwa [neg_neg] at hsp

/-- What a reservation of a wallet does: a refused one nothing, and an accepted one takes the
amount from a balance that covers it. -/
theorem tryReserveUserQuota_eq_ok {amount minimum : ℤ} {reserved : Bool}
    (h : tryReserveUserQuotaWithMinimum env users id amount minimum = .ok (reserved, users')) :
    (reserved = false → users' = users) ∧ (reserved = true → WalletSpent users users' id amount ∧
      (0 < amount → 0 ≤ walletOf users' id)) := by
  simp only [tryReserveUserQuotaWithMinimum, eq_ok] at h
  obtain ⟨hamt, -, -, -, h⟩ := h
  split at h
  · rename_i hz
    obtain ⟨_, -, h⟩ := bind_eq_ok.1 h
    have hus : users' = users := by
      split at h
      · exact (Prod.mk.inj (pure_eq_ok.1 h)).2.symm
      · obtain ⟨-, h⟩ := of_bind h
        exact (Prod.mk.inj (pure_eq_ok.1 h)).2.symm
    subst hus hz
    exact ⟨fun _ => rfl, fun _ => ⟨walletSpent_zero _ _, fun h => absurd h (lt_irrefl _)⟩⟩
  · simp only [reserveUserQuotaDBWithMinimum, bind_eq_ok] at h
    obtain ⟨-, -, h⟩ := h
    split at h
    · rename_i updated hupd
      obtain ⟨⟩ := pure_eq_ok.1 h
      obtain ⟨-, u, hu, ⟨-, hcov, -⟩, -, rfl⟩ := updateWalletQuotaByDelta_eq_ok.1 hupd
      have hsp : WalletSpent users (users.modify id (User.addQuota (-amount))) id amount := by
        intro j
        rw [walletOf_addQuota hu]
        split <;> ring
      refine ⟨by rintro ⟨⟩, fun _ => ⟨hsp, fun _ => ?_⟩⟩
      rw [hsp id, if_pos rfl, walletOf, hu, elim_some]
      omega
    · cases h
    · simp only [eq_ok] at h
      obtain ⟨-, -, -, rfl, rfl⟩ := h
      exact ⟨fun _ => rfl, by rintro ⟨⟩⟩

/-- The tokens after a request was charged `amount` on its token. -/
def TokenCharged (info : RelayInfo) (tokens tokens' : Table Token) (amount : ℤ) : Prop :=
  ∀ k, remainOf tokens' k =
    remainOf tokens k - if k = info.tokenId ∧ info.UsesToken then amount else 0

variable {info : RelayInfo}

theorem tokenCharged_self (hn : ¬info.UsesToken ∨ quota = 0) :
    TokenCharged info tokens tokens quota := by
  intro k
  split
  · rename_i hk
    rw [hn.resolve_left fun h => h hk.2, sub_zero]
  · rw [sub_zero]

theorem TokenCharged.trans {tokens'' : Table Token} {a b : ℤ}
    (h₁ : TokenCharged info tokens tokens' a) (h₂ : TokenCharged info tokens' tokens'' b) :
    TokenCharged info tokens tokens'' (a + b) := by
  intro k
  rw [h₂ k, h₁ k]
  split <;> ring

theorem tokenCharged_modify {t : Token} (hg : tokens.get? info.tokenId = some t)
    (hus : info.UsesToken) :
    TokenCharged info tokens (tokens.modify info.tokenId (Token.spend quota)) quota := by
  intro k
  unfold remainOf
  by_cases hk : k = info.tokenId
  · rw [hk, get?_modify_self, hg, if_pos ⟨rfl, hus⟩]
    rfl
  · rw [get?_modify_of_ne _ _ hk, if_neg fun h => hk h.1, sub_zero]

theorem persistTokenQuotaDelta_eq_ok {delta : ℤ} :
    persistTokenQuotaDelta env st tokens id delta = .ok tokens' ↔
      env.fault st = none ∧ (∃ t, liveToken tokens id = some t) ∧
        tokens.modify id (Token.spend (-delta)) = tokens' := by
  simp only [persistTokenQuotaDelta, eq_ok, reach_eq_ok, exists_and_right]

/-- What a reservation on the token of a request can do. -/
inductive TokenReserved (info : RelayInfo) (quota : ℤ) (tokens : Table Token) : Table Token → Prop
  | untouched (none : ¬info.UsesToken ∨ quota = 0) : TokenReserved info quota tokens tokens
  | taken (t : Token) (live : liveToken tokens info.tokenId = some t) (pos : 0 < quota)
      (uses : info.UsesToken)
      (covered : info.tokenUnlimited = true ∨ t.unlimitedQuota = true ∨ quota ≤ t.remainQuota) :
      TokenReserved info quota tokens (tokens.modify info.tokenId (Token.spend quota))

theorem preConsumeTokenQuota_eq_ok (h : preConsumeTokenQuota env info quota tokens = .ok tokens') :
    TokenReserved info quota tokens tokens' := by
  simp only [preConsumeTokenQuota, eq_ok] at h
  obtain ⟨-, h⟩ := h
  split at h
  · rename_i hn
    obtain rfl := pure_eq_ok.1 h
    exact .untouched (.inl hn)
  · rename_i hus
    have hus := not_not.1 hus
    simp only [getRelayBillingToken, eq_ok, Prod.exists] at h
    obtain ⟨token, ⟨-, -, -, -, hlv⟩, _, _, hrsv, rfl, rfl⟩ := h
    simp only [tryReserveTokenQuota, eq_ok] at hrsv
    obtain ⟨hnn, hrsv⟩ := hrsv
    split at hrsv
    · rename_i hz
      obtain ⟨⟩ := pure_eq_ok.1 hrsv
      exact .untouched (.inr hz)
    · rename_i hz
      have hpos : 0 < quota := by omega
      split at hrsv
      · rename_i hunl
        simp only [eq_ok, persistTokenQuotaDelta_eq_ok, neg_neg] at hrsv
        obtain ⟨_, ⟨-, -, rfl⟩, -, rfl⟩ := hrsv
        refine .taken token hlv hpos hus ?_
        rcases Bool.or_eq_true_iff.1 hunl with h | h
        · exact .inl h
        · exact .inr (.inl h)
      · simp only [reserveTokenQuotaDB, bind_eq_ok] at hrsv
        obtain ⟨-, -, hrsv⟩ := hrsv
        split at hrsv
        · rename_i hcov
          obtain ⟨⟩ := pure_eq_ok.1 hrsv
          rw [hlv, any_some, decide_eq_true_eq] at hcov
          exact .taken token hlv hpos hus (.inr (.inr hcov))
        · cases (Prod.mk.inj (pure_eq_ok.1 hrsv)).1

namespace TokenReserved

section

variable (h : TokenReserved info quota tokens tokens')
include h

theorem charged : TokenCharged info tokens tokens' quota := by
  cases h with
  | untouched hn => exact tokenCharged_self hn
  | taken _ live _ uses => exact tokenCharged_modify (liveToken_eq_some.1 live).1 uses

/-- A limited token that is reserved on stays nonnegative. -/
theorem nonneg (hpos : 0 < quota) (hus : info.UsesToken) (hlim : info.tokenUnlimited = false)
    (hr : ∀ t, tokens.get? info.tokenId = some t → t.unlimitedQuota = false) :
    0 ≤ remainOf tokens' info.tokenId := by
  cases h with
  | untouched hn =>
    rcases hn with h | h
    · exact absurd hus h
    · omega
  | taken t live _ _ covered =>
    have hg := (liveToken_eq_some.1 live).1
    have hcov : quota ≤ t.remainQuota := by
      rcases covered with h | h | h
      · rw [hlim] at h
        cases h
      · rw [hr t hg] at h
        cases h
      · exact h
    rw [tokenCharged_modify hg hus, if_pos ⟨rfl, hus⟩, remainOf, hg, elim_some]
    omega

/-- Taking a reservation back restores the tokens. -/
theorem undo (hpos : 0 < quota) (hus : info.UsesToken) (hfau : env.fault st = none) :
    increaseTokenQuota env st tokens' info.tokenId quota = .ok tokens := by
  cases h with
  | untouched hn =>
    rcases hn with h | h
    · exact absurd hus h
    · omega
  | taken t live =>
    obtain ⟨hg, hdel⟩ := liveToken_eq_some.1 live
    have hlv : liveToken (tokens.modify info.tokenId (Token.spend quota)) info.tokenId =
        some (t.spend quota) := by
      rw [liveToken_eq_some, get?_modify_self, hg]
      exact ⟨rfl, hdel⟩
    have hb : Token.spend (-quota) (Token.spend quota t) = t := by simp [Token.spend]
    simp only [increaseTokenQuota, eq_ok]
    refine ⟨hpos.le, persistTokenQuotaDelta_eq_ok.2 ⟨hfau, ⟨_, hlv⟩, ?_⟩⟩
    rw [modify_modify]
    exact modify_eq_self hg hb

end

end TokenReserved

theorem tokenCharged_of_increase (hus : info.UsesToken)
    (h : increaseTokenQuota env st tokens info.tokenId quota = .ok tokens') :
    TokenCharged info tokens tokens' (-quota) := by
  simp only [increaseTokenQuota, bind_eq_ok, persistTokenQuotaDelta_eq_ok] at h
  obtain ⟨-, -, -, ⟨t, hlv⟩, rfl⟩ := h
  exact tokenCharged_modify (liveToken_eq_some.1 hlv).1 hus

theorem tokenCharged_of_decrease (hus : info.UsesToken)
    (h : decreaseTokenQuota env st tokens info.tokenId quota = .ok tokens') :
    TokenCharged info tokens tokens' quota := by
  simp only [decreaseTokenQuota, bind_eq_ok, persistTokenQuotaDelta_eq_ok, neg_neg] at h
  obtain ⟨-, -, -, ⟨t, hlv⟩, rfl⟩ := h
  exact tokenCharged_modify (liveToken_eq_some.1 hlv).1 hus

end LmmApi.Billing
