import LmmApi.Lib.Threads

/-!
# Refresh of a login session

A refresh token is the id of its session and a secret. The row of the session stores the HMAC of the
current secret and of the one before it. `RefreshLoginSession` derives the next secret from the
presented one, and `RotateUserSessionRefresh` swaps the hashes: it reads the row, compares, and
updates the row under the condition that it still stores the presented hash, at most three times.
A secret that has been replaced is answered with the token that replaced it within the grace time,
and revokes the session after it.

Each statement on the row and each access to the cache is one step, and the calls interleave. What
the checks before the rotation and the writes to the cache say is an answer of the environment: they
do not touch the hashes. The database and the cache can be reached.
-/

namespace LmmApi.Auth

open Threads Attribution Function List

inductive SessionStatus
  | active
  | revoking
  | revoked
  deriving DecidableEq

/-- The row of a session. -/
structure UserSession (H : Type*) where
  status : SessionStatus := .active
  refreshHash : H
  previousRefreshHash : Option H := none
  previousValidUntil : ℤ := 0
  lastActiveAt : ℤ
  expiresAt : ℤ
  revokedAt : ℤ := 0

/-- The row is served at the time. -/
def UserSession.Active {H : Type*} (r : UserSession H) (now : ℤ) : Prop :=
  r.status = .active ∧ r.revokedAt = 0 ∧ now < r.expiresAt
  deriving Decidable

/-- A call of `RefreshLoginSession`: the presented secret and the time it passes on. -/
structure Call (S : Type*) where
  secret : S
  now : ℤ

inductive RefreshError
  | userSessionInvalid
  | userSessionInactive
  | loginSessionMismatch
  | loginSessionRevoked
  | refreshTokenInvalid
  | refreshRace

/-- What is left to do of a call. -/
inductive Instr (S : Type*)
  /-- The session and its user are read and checked. -/
  | check (c : Call S)
  /-- The loop, with the iterations that are left, reads the row. -/
  | rotate (tries : ℕ) (c : Call S)
  /-- The row is updated if it still stores the presented hash. -/
  | swap (tries : ℕ) (c : Call S)
  /-- The rotated session is written to the cache. -/
  | publish (c : Call S)
  | confirm (c : Call S)
  /-- The deny fence is written to the cache, then the row is revoked. -/
  | fence (c : Call S)
  | revoke (c : Call S)

def Instr.call {S : Type*} : Instr S → Call S
  | .check c | .rotate _ c | .swap _ c | .publish c | .confirm c | .fence c | .revoke c => c

/-- What the checks, the cache and the clock answer. -/
inductive Answer
  | done
  | refused (err : RefreshError)
  | inactive
  | stale
  | clock (now : ℤ)

/-- The row, and what the calls have returned: the secret of the new token. -/
structure Login (S H : Type*) where
  session : UserSession H
  answers : List (Call S × Except RefreshError S) := []

def Login.answer {S H : Type*} (s : Login S H) (c : Call S) (r : Except RefreshError S) :
    Login S H :=
  { s with answers := s.answers ++ [(c, r)] }

/-- The two keyed digests, for the id of the session. -/
structure Hmacs (S H : Type*) where
  hashRefreshSecret : S → H
  deriveNextRefreshSecret : S → S

/-- `RefreshReplayWindow`, in seconds. -/
def refreshReplayWindow : ℤ := 30

variable {S H : Type*} (m : Hmacs S H)

/-- The update that rotates the hashes. -/
def UserSession.rotated (r : UserSession H) (c : Call S) : UserSession H :=
  { r with
    previousRefreshHash := some (m.hashRefreshSecret c.secret)
    previousValidUntil := c.now + refreshReplayWindow
    refreshHash := m.hashRefreshSecret (m.deriveNextRefreshSecret c.secret)
    lastActiveAt := c.now }

variable [DecidableEq H]

/-- An iteration of the loop when it has read the row. -/
def compareRow (tries : ℕ) (c : Call S) (s : Login S H) : Effect (Login S H) (Call S) (Instr S) :=
  if ¬ s.session.Active c.now then ⟨s.answer c (.error .userSessionInactive), [], []⟩
  else if s.session.refreshHash = m.hashRefreshSecret c.secret then ⟨s, [.swap tries c], []⟩
  else if s.session.previousRefreshHash ≠ some (m.hashRefreshSecret c.secret) then
    ⟨s.answer c (.error .refreshTokenInvalid), [], []⟩
  else if c.now ≤ s.session.previousValidUntil then
    -- the answer to a race is rebuilt from the row that was read
    if m.hashRefreshSecret (m.deriveNextRefreshSecret c.secret) = s.session.refreshHash then
      ⟨s.answer c (.ok (m.deriveNextRefreshSecret c.secret)), [], []⟩
    else ⟨s.answer c (.error .refreshRace), [], []⟩
  else ⟨s, [.fence c], []⟩

/-- The steps of `RefreshLoginSession` with `RotateUserSessionRefresh`. -/
def sem : Instr S → Answer → Login S H → Option (Effect (Login S H) (Call S) (Instr S))
  | .check c, .done, s =>
    if m.hashRefreshSecret c.secret = m.hashRefreshSecret (m.deriveNextRefreshSecret c.secret) then
      some ⟨s.answer c (.error .userSessionInvalid), [], []⟩
    else some ⟨s, [.rotate 3 c], []⟩
  | .check c, .refused err, s => some ⟨s.answer c (.error err), [], []⟩
  | .rotate 0 c, _, s => some ⟨s.answer c (.error .refreshTokenInvalid), [], []⟩
  | .rotate (tries + 1) c, _, s => some (compareRow m tries c s)
  | .swap tries c, _, s =>
    if s.session.Active c.now ∧ s.session.refreshHash = m.hashRefreshSecret c.secret then
      some ⟨{ s with session := s.session.rotated m c }, [.publish c], []⟩
    else some ⟨s, [.rotate tries c], []⟩
  | .publish c, .done, s => some ⟨s.answer c (.ok (m.deriveNextRefreshSecret c.secret)), [], []⟩
  | .publish c, .inactive, s => some ⟨s.answer c (.error .userSessionInactive), [], []⟩
  | .publish c, .stale, s => some ⟨s, [.confirm c], []⟩
  | .confirm c, .clock now, s =>
    if s.session.Active now then
      some ⟨s.answer c (.ok (m.deriveNextRefreshSecret c.secret)), [], []⟩
    else some ⟨s.answer c (.error .userSessionInactive), [], []⟩
  | .fence c, _, s => some ⟨s, [.revoke c], []⟩
  | .revoke c, _, s =>
    if s.session.Active c.now then
      some ⟨{ s with session := { s.session with status := .revoked, revokedAt := c.now } }.answer c
        (.error .loginSessionRevoked), [], []⟩
    else some ⟨s.answer c (.error .userSessionInactive), [], []⟩
  | _, _, _ => none

/-- The session as it was created with its first secret. -/
def created (s₀ : S) (createdAt expiresAt : ℤ) : Pool (Login S H) (Call S) (Instr S) :=
  ⟨{ session :=
      { refreshHash := m.hashRefreshSecret s₀, lastActiveAt := createdAt, expiresAt } }, []⟩

/-- Calls that `K` admits start, and the calls take their steps. -/
def Calls (K : Call S → Prop) :
    Label (Login S H) (Call S) (Instr S) Answer → Pool (Login S H) (Call S) (Instr S) → Prop
  | .start t, _ => ∃ c, K c ∧ t = ⟨c, [.check c]⟩
  | .step _ _, _ => True
  | _, _ => False

/-- The `n`th secret of the session. -/
def secretAt (s₀ : S) (n : ℕ) : S := m.deriveNextRefreshSecret^[n] s₀

/-- The row stores the hash of the `n`th secret, and of the one before it. -/
def Stores (s₀ : S) (n : ℕ) (r : UserSession H) : Prop :=
  r.refreshHash = m.hashRefreshSecret (secretAt m s₀ n) ∧ r.previousRefreshHash = match n with
      | 0 => none
      | n + 1 => some (m.hashRefreshSecret (secretAt m s₀ n))

/-! ## What a step can do -/

/-- The effects that an instruction can have. -/
inductive Does (s : Login S H) : Instr S → Effect (Login S H) (Call S) (Instr S) → Prop
  | fail (i : Instr S) (err : RefreshError) : Does s i ⟨s.answer i.call (.error err), [], []⟩
  | token (i : Instr S) :
    Does s i ⟨s.answer i.call (.ok (m.deriveNextRefreshSecret i.call.secret)), [], []⟩
  | start {c : Call S} (h : m.deriveNextRefreshSecret c.secret ≠ c.secret) :
    Does s (.check c) ⟨s, [.rotate 3 c], []⟩
  | current {tries : ℕ} {c : Call S} : Does s (.rotate (tries + 1) c) ⟨s, [.swap tries c], []⟩
  | reuse {tries : ℕ} {c : Call S}
    (hprevious : s.session.previousRefreshHash = some (m.hashRefreshSecret c.secret))
    (hlate : s.session.previousValidUntil < c.now) :
    Does s (.rotate (tries + 1) c) ⟨s, [.fence c], []⟩
  | rotated {tries : ℕ} {c : Call S}
    (hcurrent : s.session.refreshHash = m.hashRefreshSecret c.secret) :
    Does s (.swap tries c) ⟨{ s with session := s.session.rotated m c }, [.publish c], []⟩
  | retry {tries : ℕ} {c : Call S} : Does s (.swap tries c) ⟨s, [.rotate tries c], []⟩
  | stale {c : Call S} : Does s (.publish c) ⟨s, [.confirm c], []⟩
  | fence {c : Call S} : Does s (.fence c) ⟨s, [.revoke c], []⟩
  | revoked {c : Call S} : Does s (.revoke c)
      ⟨{ s with session := { s.session with status := .revoked, revokedAt := c.now } }.answer c
        (.error .loginSessionRevoked), [], []⟩

variable {m} {s : Login S H} {e : Effect (Login S H) (Call S) (Instr S)} {i : Instr S} {a : Answer}
variable {p : Pool (Login S H) (Call S) (Instr S)}

/-- **What a step of a call can do.** -/
theorem sem_does (h : sem m i a s = some e) : Does m s i e := by
  revert h
  fun_cases sem m i a s <;> intro h <;> cases h
  case case1 => exact .fail (.check _) _
  case case2 _ hne => exact .start fun heq => hne (by rw [heq])
  case case3 => exact .fail (.check _) _
  case case4 => exact .fail (.rotate 0 _) _
  case case5 =>
    rw [compareRow]
    split_ifs with _ _ hpre hlate
    · exact .current
    · exact .fail (.rotate _ _) _
    · exact .token (.rotate _ _)
    · exact .fail (.rotate _ _) _
    · exact .reuse (not_not.1 hpre) (not_le.1 hlate)
    · exact .fail (.rotate _ _) _
  case case6 h => exact .rotated h.2
  case case7 => exact .retry
  case case8 => exact .token (.publish _)
  case case9 => exact .fail (.publish _) _
  case case10 => exact .stale
  case case11 => exact .token (.confirm _)
  case case12 => exact .fail (.confirm _) _
  case case13 => exact .fence
  case case14 => exact .revoked
  case case15 => exact .fail (.revoke _) _

/-- What holds of a pending instruction: a call in the loop presents no secret that derives itself,
and one on its way to the revocation presents the secret of an earlier call too late. -/
def Instr.Due (m : Hmacs S H) (K : Call S → Prop) : Instr S → Prop
  | .rotate _ c | .swap _ c => m.deriveNextRefreshSecret c.secret ≠ c.secret
  | .fence c | .revoke c => ∃ w, K w ∧ w.secret = c.secret ∧ w.now + refreshReplayWindow < c.now
  | _ => True

/-- The invariant of the row and of the answers. -/
structure Consistent (m : Hmacs S H) (K : Call S → Prop) (s₀ : S) (expiresAt : ℤ)
    (s : Login S H) : Prop where
  stores : ∃ n, Stores m s₀ n s.session
  /-- The grace time is that of a call that presented the previous secret. -/
  granted : ∀ h ∈ s.session.previousRefreshHash, ∃ w, K w ∧ h = m.hashRefreshSecret w.secret ∧
    s.session.previousValidUntil = w.now + refreshReplayWindow
  status : s.session.status = .active ∧ s.session.revokedAt = 0 ∨ s.session.status = .revoked
  expires : s.session.expiresAt = expiresAt
  tokens : ∀ c t, (c, .ok t) ∈ s.answers → t = m.deriveNextRefreshSecret c.secret

variable {K : Call S → Prop} {s₀ : S} {expiresAt : ℤ}

omit [DecidableEq H] in
theorem Consistent.answer (h : Consistent m K s₀ expiresAt s) (c : Call S)
    {r : Except RefreshError S} (hr : ∀ t, r = .ok t → t = m.deriveNextRefreshSecret c.secret) :
    Consistent m K s₀ expiresAt (s.answer c r) := by
  refine ⟨h.stores, h.granted, h.status, h.expires, fun c' t ht => ?_⟩
  obtain ht | ht := mem_append.1 ht
  · exact h.tokens c' t ht
  · obtain ⟨rfl, rfl⟩ := Prod.mk.inj (mem_singleton.1 ht)
    exact hr t rfl

omit [DecidableEq H] in
/-- The row that stores the presented hash goes on to the next secret. -/
theorem Stores.rotated (hm : m.hashRefreshSecret.Injective) {n : ℕ} {r : UserSession H}
    (h : Stores m s₀ n r) {c : Call S} (hcur : r.refreshHash = m.hashRefreshSecret c.secret) :
    c.secret = secretAt m s₀ n ∧ Stores m s₀ (n + 1) (r.rotated m c) := by
  have hc : c.secret = secretAt m s₀ n := hm (hcur ▸ h.1)
  refine ⟨hc, ?_, by rw [UserSession.rotated, hc]⟩
  rw [UserSession.rotated, hc, secretAt, secretAt, iterate_succ_apply']

/-- One step keeps the invariant. -/
theorem sem_consistent (hm : m.hashRefreshSecret.Injective) (h : sem m i a s = some e)
    (hi : K i.call) (hdue : i.Due m K) (hs : Consistent m K s₀ expiresAt s) :
    Consistent m K s₀ expiresAt e.shared ∧ e.spawned = [] ∧
      ∀ i' ∈ e.next, K i'.call ∧ i'.Due m K := by
  cases sem_does h with
  | fail => exact ⟨hs.answer _ nofun, rfl, nofun⟩
  | token => exact ⟨hs.answer _ fun t ht => (Except.ok.inj ht).symm, rfl, nofun⟩
  | start hne => exact ⟨hs, rfl, by simpa using ⟨hi, hne⟩⟩
  | current | retry | fence => exact ⟨hs, rfl, by simpa using ⟨hi, hdue⟩⟩
  | reuse hpre hlate =>
    obtain ⟨w, hw, hhash, hunt⟩ := hs.granted _ hpre
    exact ⟨hs, rfl, by simpa using ⟨hi, w, hw, (hm hhash).symm, hunt ▸ hlate⟩⟩
  | rotated hcur =>
    obtain ⟨n, hn⟩ := hs.stores
    refine ⟨⟨⟨n + 1, (hn.rotated hm hcur).2⟩, ?_, hs.status, hs.expires, hs.tokens⟩, rfl,
      by simpa using ⟨hi, trivial⟩⟩
    rintro h ⟨⟩
    exact ⟨_, hi, rfl, rfl⟩
  | stale => exact ⟨hs, rfl, by simpa using ⟨hi, trivial⟩⟩
  | @revoked c =>
    have hrev : Consistent m K s₀ expiresAt
        { s with session := { s.session with status := .revoked, revokedAt := c.now } } :=
      ⟨hs.stores, hs.granted, .inr rfl, hs.expires, hs.tokens⟩
    exact ⟨hrev.answer _ nofun, rfl, nofun⟩

/-! ## Runs -/

/-- The invariant of a pool of calls. -/
def Sound (m : Hmacs S H) (K : Call S → Prop) (s₀ : S) (expiresAt : ℤ)
    (p : Pool (Login S H) (Call S) (Instr S)) : Prop :=
  Consistent m K s₀ expiresAt p.shared ∧ ∀ x ∈ p.pending, K x.2.call ∧ x.2.Due m K

variable {l : Label (Login S H) (Call S) (Instr S) Answer}

theorem sound_exec (hm : m.hashRefreshSecret.Injective) (hl : Calls K l p)
    (h : Sound m K s₀ expiresAt p) : Sound m K s₀ expiresAt (exec (sem m) l p) := by
  cases l with
  | start =>
    obtain ⟨c, hc, rfl⟩ := hl
    refine ⟨h.1, fun x hx => ?_⟩
    rw [pending_start, Multiset.mem_cons] at hx
    obtain rfl | hx := hx
    · exact ⟨hc, trivial⟩
    · exact h.2 x hx
  | step j a =>
    obtain hsa | ⟨tag, i, _, e, -, hsem, hsh, R, hbef, haft⟩ := exec_cases (sem m) j a p
    · rwa [hsa]
    · obtain ⟨hi, hdue⟩ := h.2 (tag, i) (hbef ▸ Multiset.mem_cons_self _ _)
      obtain ⟨hs, hspn, hn⟩ := sem_consistent hm hsem hi hdue h.1
      refine ⟨hsh ▸ hs, ?_⟩
      rw [haft]
      exact Effect.forall_pending hspn hn (hbef ▸ h.2)
  | crash | external => exact hl.elim

/-- A step changes the row only as it rotates the hash of the presented secret or revokes it. -/
theorem session_exec (hl : Calls K l p) :
    (exec (sem m) l p).shared.session = p.shared.session ∨ ∃ j a i, l = .step j a ∧
      p.head? j = some i ∧
      ((∃ tries c, i = .swap tries c ∧ p.shared.session.refreshHash = m.hashRefreshSecret c.secret ∧
          (exec (sem m) l p).shared.session = p.shared.session.rotated m c) ∨
        ∃ c, i = .revoke c ∧ (exec (sem m) l p).shared.session =
          { p.shared.session with status := .revoked, revokedAt := c.now }) := by
  cases l with
  | start => exact .inl rfl
  | step j a =>
    obtain hs | ⟨_, i, _, e, hth, hsem, hsh, -⟩ := exec_cases (sem m) j a p
    · exact .inl (by rw [hs])
    · rw [hsh]
      cases sem_does hsem with
      | rotated hcur =>
        exact .inr ⟨j, a, _, rfl, Pool.head?_eq_some hth, .inl ⟨_, _, rfl, hcur, rfl⟩⟩
      | revoked => exact .inr ⟨j, a, _, rfl, Pool.head?_eq_some hth, .inr ⟨_, rfl, rfl⟩⟩
      | _ => exact .inl rfl
  | crash | external => exact hl.elim

theorem revoked_exec (hl : Calls K l p) (h : p.shared.session.status = .revoked) :
    (exec (sem m) l p).shared.session.status = .revoked := by
  obtain hs | ⟨_, _, _, -, -, ⟨_, _, -, -, hr⟩ | ⟨_, -, hr⟩⟩ := session_exec (m := m) hl
  · rw [hs, h]
  · rw [hr]
    exact h
  · rw [hr]

omit [DecidableEq H] in
/-- What is known of the next instruction of a thread while the session is valid. -/
theorem Sound.head {j : ℕ} (hK : ∀ c, K c → c.now < expiresAt) (h : Sound m K s₀ expiresAt p)
    (hact : p.shared.session.status ≠ .revoked) (hj : p.head? j = some i) :
    p.shared.session.Active i.call.now ∧ i.Due m K ∧
      ∃ tag rest, p.threads[j]? = some ⟨tag, i :: rest⟩ := by
  obtain ⟨tag, rest, hth⟩ := Pool.thread_of_head? hj
  obtain ⟨hi, hdue⟩ := h.2 (tag, i)
    (mem_pendingOf.2 ⟨_, mem_of_getElem? hth, rfl, mem_cons_self⟩)
  obtain ⟨hst, hat⟩ := h.1.status.resolve_right hact
  exact ⟨⟨hst, hat, h.1.expires ▸ hK _ hi⟩, hdue, tag, rest, hth⟩

/-- The thread at the position is about to revoke the session, or the session is revoked. -/
def Doomed (j : ℕ) (c : Call S) (p : Pool (Login S H) (Call S) (Instr S)) : Prop :=
  p.head? j = some (.fence c) ∨ p.head? j = some (.revoke c) ∨ p.shared.session.status = .revoked

theorem doomed_exec {j : ℕ} {c : Call S} (hK : ∀ c, K c → c.now < expiresAt)
    (hl : Calls K l p) (hp : Sound m K s₀ expiresAt p) (h : Doomed j c p) :
    Doomed j c (exec (sem m) l p) := by
  by_cases hrev : p.shared.session.status = .revoked
  · exact .inr (.inr (revoked_exec hl hrev))
  by_cases hlj : ∃ a, l = .step j a
  · obtain ⟨a, rfl⟩ := hlj
    obtain hj | hj | h := h
    · obtain ⟨-, -, tag, rest, hth⟩ := hp.head hK hrev hj
      have hsem : sem m (.fence c) a p.shared = some ⟨p.shared, [.revoke c], []⟩ := rfl
      exact .inr (.inl (Pool.head?_eq_some (threads_exec_of_sem hth hsem)))
    · obtain ⟨hact, -, tag, rest, hth⟩ := hp.head hK hrev hj
      have hsem : sem m (.revoke c) a p.shared = some _ := if_pos hact
      exact .inr (.inr (by rw [(exec_of_sem hth hsem).1]; rfl))
    · exact absurd h hrev
  · have hcra : l ≠ .crash j := by
      rintro rfl
      exact hl
    have hsta {i : Instr S} (hj : p.head? j = some i) : (exec (sem m) l p).head? j = some i := by
      obtain ⟨_, _, hth⟩ := Pool.thread_of_head? hj
      exact Pool.head?_eq_some (threads_exec_of_ne (sem m) (fun a ha => hlj ⟨a, ha⟩) hcra hth)
    exact Or.imp hsta (Or.imp_left hsta) (h.imp_right (Or.imp_right (absurd · hrev)))

/-- What a call does when its thread reads the row while it stores the `n`th secret. -/
structure Reading (m : Hmacs S H) (K : Call S → Prop) (s₀ : S) (n : ℕ)
    (p : Pool (Login S H) (Call S) (Instr S)) (j : ℕ) (c : Call S) (a : Answer) : Prop where
  /-- The previous secret returns the current one within the grace time, and the row stays. -/
  race : ∀ k, n = k + 1 → c.secret = secretAt m s₀ k → c.now ≤ p.shared.session.previousValidUntil →
    (exec (sem m) (.step j a) p).shared = p.shared.answer c (.ok (secretAt m s₀ n))
  /-- After the grace time, the session is revoked when the call has ended. -/
  reuse : ∀ k, n = k + 1 → c.secret = secretAt m s₀ k →
    p.shared.session.previousValidUntil < c.now →
    ∀ steps, Along (exec (sem m)) (Calls K) (exec (sem m) (.step j a) p) steps →
      (run (exec (sem m)) (exec (sem m) (.step j a) p) steps).head? j = none →
      (run (exec (sem m)) (exec (sem m) (.step j a) p) steps).shared.session.status = .revoked
  /-- Any other secret fails and changes nothing. -/
  other : c.secret ≠ secretAt m s₀ n → (∀ k, n = k + 1 → c.secret ≠ secretAt m s₀ k) →
    (exec (sem m) (.step j a) p).shared = p.shared.answer c (.error .refreshTokenInvalid)

theorem reading (hm : m.hashRefreshSecret.Injective) (hK : ∀ c, K c → c.now < expiresAt)
    (h : Sound m K s₀ expiresAt p) {n : ℕ} (hn : Stores m s₀ n p.shared.session)
    (hact : p.shared.session.status ≠ .revoked) {j tries : ℕ} {c : Call S}
    (hj : p.head? j = some (.rotate (tries + 1) c)) (a : Answer) : Reading m K s₀ n p j c a := by
  obtain ⟨hr, hne, _, _, hth⟩ := h.head hK hact hj
  have hsem : sem m (.rotate (tries + 1) c) a p.shared = some (compareRow m tries c p.shared) := rfl
  have hr : ¬ ¬ p.shared.session.Active c.now := not_not.2 hr
  have hcur (hc : c.secret ≠ secretAt m s₀ n) :
      p.shared.session.refreshHash ≠ m.hashRefreshSecret c.secret :=
    fun heq => hc (hm (heq ▸ hn.1))
  -- a call that presents the previous secret derives the current one
  have hrep {k : ℕ} (hk : n = k + 1) (hc : c.secret = secretAt m s₀ k) :
      compareRow m tries c p.shared = if c.now ≤ p.shared.session.previousValidUntil then
        ⟨p.shared.answer c (.ok (secretAt m s₀ n)), [], []⟩ else ⟨p.shared, [.fence c], []⟩ := by
    have hnext : m.deriveNextRefreshSecret c.secret = secretAt m s₀ n := by
      rw [hc, hk, secretAt, secretAt, iterate_succ_apply']
    have hpre : p.shared.session.previousRefreshHash = some (m.hashRefreshSecret c.secret) := by
      rw [hn.2, hk, hc]
    rw [compareRow, if_neg hr, if_neg (hcur (hnext ▸ hne.symm)),
      if_neg (not_not.2 hpre), hnext, if_pos hn.1.symm]
  refine ⟨fun k hk hc hnow => ?_, fun k hk hc hnow steps hss hende => ?_, fun hc hpre => ?_⟩
  · rw [(exec_of_sem hth hsem).1, hrep hk hc, if_pos hnow]
  · rw [hrep hk hc, if_neg (not_le.2 hnow)] at hsem
    have hdoo : Doomed j c (exec (sem m) (.step j a) p) :=
      .inl (Pool.head?_eq_some (threads_exec_of_sem hth hsem))
    have hend := run_rule (P := fun q => Sound m K s₀ expiresAt q ∧ Doomed j c q)
      (fun q l hl hq => ⟨sound_exec hm hl hq.1, doomed_exec hK hl hq.1 hq.2⟩)
      ⟨sound_exec (l := .step j a) hm trivial h, hdoo⟩ hss
    simpa [Doomed, hende] using hend.2
  · have hunk : p.shared.session.previousRefreshHash ≠ some (m.hashRefreshSecret c.secret) := by
      rw [hn.2]
      cases n with
      | zero => exact nofun
      | succ k => exact fun heq => hpre k rfl (hm (Option.some.inj heq)).symm
    rw [(exec_of_sem hth hsem).1, compareRow, if_neg hr, if_neg (hcur hc), if_pos hunk]

/-- **Rotation is linear and safe against replays**: in every run of calls before the session
expires, the row stores the hashes of two consecutive secrets. A step leaves them, or goes on to the
next secret in a call that presented the current one. A call that reads the row of a session that is
not revoked does what `Reading` says, and only a call on its way to the revocation revokes. Calls
that present one secret within the grace time of each other do not, and return the same token. -/
theorem rotation_linear (hm : m.hashRefreshSecret.Injective) (s₀ : S) (createdAt expiresAt : ℤ)
    (K : Call S → Prop) (hK : ∀ c, K c → c.now < expiresAt)
    (steps : List (Label (Login S H) (Call S) (Instr S) Answer))
    (hrun : Along (exec (sem m)) (Calls K) (created m s₀ createdAt expiresAt) steps) :
    let p := run (exec (sem m)) (created m s₀ createdAt expiresAt) steps
    (∃ n, Stores m s₀ n p.shared.session ∧
      (∀ l, Calls K l p →
        Stores m s₀ n (exec (sem m) l p).shared.session ∨
          Stores m s₀ (n + 1) (exec (sem m) l p).shared.session ∧
            ∃ j a tries c, l = .step j a ∧ p.head? j = some (.swap tries c) ∧
              c.secret = secretAt m s₀ n) ∧
      ∀ j tries c a, p.head? j = some (.rotate (tries + 1) c) →
        p.shared.session.status ≠ .revoked → Reading m K s₀ n p j c a) ∧
    (∀ l, Calls K l p → p.shared.session.status ≠ .revoked →
      (exec (sem m) l p).shared.session.status = .revoked →
      ∃ j a c, l = .step j a ∧ p.head? j = some (.revoke c)) ∧
    ∀ x, (∀ c c', K c → K c' → c.secret = x → c'.secret = x →
        c.now ≤ c'.now + refreshReplayWindow) →
      (∀ j c, p.head? j = some (.revoke c) → c.secret ≠ x) ∧
        ∀ c t, (c, .ok t) ∈ p.shared.answers → c.secret = x →
          t = m.deriveNextRefreshSecret x := by
  intro p
  have hp : Sound m K s₀ expiresAt p :=
    run_rule (fun p l hl => sound_exec hm hl)
      ⟨⟨⟨0, rfl, rfl⟩, nofun, .inl ⟨rfl, rfl⟩, rfl, nofun⟩, nofun⟩ hrun
  obtain ⟨n, hn⟩ := hp.1.stores
  refine ⟨⟨n, hn, fun l hl => ?_, fun j tries c a hj hactive => reading hm hK hp hn hactive hj a⟩,
    fun l hl hactive hafter => ?_, fun x hx => ⟨fun j c hj hc => ?_, fun c t ht hc => ?_⟩⟩
  · obtain hsame | ⟨j, a, _, rfl, hj, ⟨tries, c, rfl, hcurrent, hrow⟩ | ⟨c, -, hrow⟩⟩ :=
      session_exec (m := m) hl
    · exact .inl (hsame ▸ hn)
    · obtain ⟨hc, hrotated⟩ := hn.rotated hm hcurrent
      exact .inr ⟨hrow ▸ hrotated, j, a, tries, c, rfl, hj, hc⟩
    · exact .inl (hrow ▸ hn)
  · obtain hsame | ⟨j, a, _, rfl, hj, ⟨_, c, -, -, hrow⟩ | ⟨c, rfl, -⟩⟩ :=
      session_exec (m := m) hl
    · exact absurd (hsame ▸ hafter) hactive
    · rw [hrow] at hafter
      exact absurd hafter hactive
    · exact ⟨j, a, c, rfl, hj⟩
  · obtain ⟨tag, _, hthread⟩ := Pool.thread_of_head? hj
    obtain ⟨hKc, w, hw, hsecret, hlate⟩ := hp.2 (tag, .revoke c)
      (mem_pendingOf.2 ⟨_, mem_of_getElem? hthread, rfl, mem_cons_self⟩)
    exact absurd (hx c w hKc hw hc (hsecret.trans hc)) (not_le.2 hlate)
  · rw [← hc]
    exact hp.1.tokens c t ht

/-- Two calls that present the first secret and both find its hash, with natural numbers for secrets
and hashes: the second one fails to rotate it and finds the rotated row. -/
def raceSteps : List (Label (Login ℕ ℕ) (Call ℕ) (Instr ℕ) Answer) :=
  [.start ⟨⟨0, 5⟩, [.check ⟨0, 5⟩]⟩, .start ⟨⟨0, 6⟩, [.check ⟨0, 6⟩]⟩, .step 0 .done, .step 1 .done,
    .step 0 .done, .step 1 .done, .step 0 .done, .step 1 .done, .step 1 .done, .step 0 .done]

/-- The row goes on by one secret, and both calls return its token. -/
theorem rotation_linear_race :
    let p := run (exec (sem ⟨id, Nat.succ⟩)) (created ⟨id, Nat.succ⟩ 0 1 100) raceSteps
    Stores ⟨id, Nat.succ⟩ 0 1 p.shared.session ∧ p.shared.answers.length = 2 ∧
      (∀ x ∈ p.shared.answers, x.2.isOk) ∧
      ∀ c t, (c, .ok t) ∈ p.shared.answers → c.secret = 0 → t = 1 := by
  have hcalls : Along (exec (sem ⟨id, Nat.succ⟩)) (Calls fun c => c.now = 5 ∨ c.now = 6)
      (created ⟨id, Nat.succ⟩ 0 1 100) raceSteps :=
    ⟨⟨⟨0, 5⟩, .inl rfl, rfl⟩, ⟨⟨0, 6⟩, .inr rfl, rfl⟩, by simp [Along, Calls]⟩
  refine ⟨⟨rfl, rfl⟩, by decide +kernel, by decide +kernel, ?_⟩
  refine ((rotation_linear (m := ⟨id, Nat.succ⟩) injective_id 0 1 100 _ ?_ raceSteps hcalls).2.2 0 ?_).2
  · rintro c (hc | hc) <;> omega
  · intro c c' hc hc' _ _
    rw [refreshReplayWindow]
    omega

end LmmApi.Auth
