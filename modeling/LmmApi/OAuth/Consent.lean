import LmmApi.Lib.Attribution
import LmmApi.Lib.GoText
import LmmApi.Lib.Guarded
import LmmApi.Lib.Table

/-!
# The consent of a user

A request for authorization waits for the consent of a user in the browser that it came from, and is
decided once. Every call is one transaction, serialized by a write to the row that it is about. A
call reads the clock before and after it asks the policy, whose answer is arbitrary.

Handles and secrets are random and stored as digests that do not collide: here a handle is the key
of its row, and the digest of a text is the text. A column that is zero or empty until it is set is
an option.

A decision with the consent secret looks at the expiry again after the policy has answered, and one
with the browser binding does not: `consent_single` says when the codes come before the expiry.
-/

namespace LmmApi.OAuth

open Attribution Guarded Option Table List

def printableASCII (s : String) : Bool := s.toList.all fun c => '!' ≤ c ∧ c ≤ '~'

def validBrowserBinding (s : String) : Prop := 32 ≤ Go.len s ∧ Go.len s ≤ 512 ∧ printableASCII s
  deriving Decidable

structure Authorization where
  browserDigest : String
  expiresAt : ℤ
  userId : ℤ := 0
  consentDigest : Option String := none
  browserCSRFHash : Option String := none
  consumedAt : Option ℤ := none

/-- A grant family with its code, and the authorization that it comes from. -/
structure Grant where
  authorization : ℕ
  userId : ℤ
  createdAt : ℤ

structure Db where
  authorizations : Table Authorization
  grants : Table Grant

inductive ProtocolError
  | invalidRequest
  | accessDenied

def authorizationTTL : ℤ := 300000

/-- `authorizationLive`. -/
def Authorization.Live (a : Authorization) (binding : String) (now : ℤ) : Prop :=
  a.consumedAt = none ∧ now < a.expiresAt ∧ a.browserDigest = binding
  deriving Decidable

variable (db : Db) (id : ℕ)

/-- The only row with the binding. -/
def Db.lockBrowserAuthorization (binding : String) : Option (ℕ × Authorization) :=
  match db.authorizations.rows.filter fun r => r.2.browserDigest = binding with
  | [r] => some r
  | _ => none

def Db.update (f : Authorization → Authorization) : Db :=
  { db with authorizations := db.authorizations.modify id f }

/-- The decision is written, and `createCode` adds the family and its code if it is an approval. -/
def Db.record (userId : ℤ) (approve : Bool) (now : ℤ) : Db :=
  let db := db.update id fun a => { a with consumedAt := some now }
  if approve then { db with grants := db.grants.insert ⟨id, userId, now⟩ } else db

/-- The calls. `permitted` is the answer of `grantPermitted`, and `later` the time after it. -/
inductive Call
  /-- `BeginAuthorization` for a request that passes its checks. -/
  | begin (binding : String) (now : ℤ)
  | setBrowserCSRF (handle : ℕ) (binding csrf : String) (now : ℤ)
  | consumeBrowserFlow (binding csrf : String) (now : ℤ)
  | bindBrowserSession (binding csrf : String) (userId : ℤ) (sessionId : String)
      (sessionVersion authVersion now : ℤ)
  | trustedPrepareConsent (handle : ℕ) (binding : String) (userId : ℤ) (secret : String) (now : ℤ)
      (permitted : Bool) (later : ℤ)
  | decide (approve : Bool) (handle : ℕ) (binding secret : String) (now : ℤ) (permitted : Bool)
      (later : ℤ)
  | decideByBrowserBinding (approve : Bool) (binding : String) (now : ℤ) (permitted : Bool)
      (later : ℤ)

def Call.call : Call → Except ProtocolError Db
  | .begin binding now =>
    let row : Authorization := { browserDigest := binding, expiresAt := now + authorizationTTL }
    return { db with authorizations := db.authorizations.insert row }
  | .setBrowserCSRF handle binding csrf now => do
    require .invalidRequest (validBrowserBinding binding ∧ validBrowserBinding csrf)
    let a ← orFail (db.authorizations.get? handle) .invalidRequest
    require .invalidRequest (a.Live binding now ∧ a.userId = 0 ∧ a.browserCSRFHash = none)
    return db.update handle fun a => { a with browserCSRFHash := some csrf }
  | .consumeBrowserFlow binding csrf now => do
    require .invalidRequest (validBrowserBinding binding ∧ validBrowserBinding csrf)
    let (id, a) ← orFail (db.lockBrowserAuthorization binding) .invalidRequest
    require .invalidRequest (a.Live binding now ∧ a.browserCSRFHash = some csrf)
    return db.update id fun a => { a with browserCSRFHash := none }
  | .bindBrowserSession binding csrf userId sessionId sessionVersion authVersion now => do
    require .invalidRequest (validBrowserBinding binding ∧ validBrowserBinding csrf ∧ 0 < userId ∧
      sessionId ≠ "" ∧ 0 < sessionVersion ∧ 0 < authVersion)
    let (id, a) ← orFail (db.lockBrowserAuthorization binding) .invalidRequest
    require .invalidRequest (a.Live binding now ∧ a.userId = userId ∧ a.consentDigest ≠ none ∧
      a.browserCSRFHash = none)
    return db.update id fun a => { a with browserCSRFHash := some csrf }
  | .trustedPrepareConsent handle binding userId secret now permitted later => do
    require .invalidRequest (0 < userId ∧ validBrowserBinding binding)
    let a ← orFail (db.authorizations.get? handle) .invalidRequest
    require .invalidRequest (a.Live binding now ∧ a.userId = 0)
    require .accessDenied permitted
    require .invalidRequest (a.Live binding later)
    return db.update handle fun a => { a with userId, consentDigest := some secret }
  | .decide approve handle binding secret now permitted later => do
    require .invalidRequest (validBrowserBinding binding)
    let a ← orFail (db.authorizations.get? handle) .invalidRequest
    require .invalidRequest (a.Live binding now ∧ 0 < a.userId ∧ a.consentDigest = some secret)
    require .accessDenied (approve → permitted)
    require .invalidRequest (later < a.expiresAt)
    return db.record handle a.userId approve later
  | .decideByBrowserBinding approve binding now permitted later => do
    require .invalidRequest (validBrowserBinding binding)
    let (id, a) ← orFail (db.lockBrowserAuthorization binding) .invalidRequest
    require .invalidRequest (a.Live binding now ∧ 0 < a.userId ∧ a.consentDigest ≠ none)
    require .accessDenied (approve → permitted)
    -- the sibling above looks at the expiry here
    return db.record id a.userId approve later

/-- A call that is rejected changes nothing. -/
def exec (c : Call) (db : Db) : Db := (c.call db).toOption.getD db

def Db.empty : Db := ⟨.empty, .empty⟩

/-- The browser binding that a call carries. -/
def Call.binding? : Call → Option String
  | .begin .. => none
  | .setBrowserCSRF _ binding _ _ | .consumeBrowserFlow binding _ _
  | .bindBrowserSession binding _ _ _ _ _ _ | .trustedPrepareConsent _ binding _ _ _ _ _
  | .decide _ _ binding _ _ _ _ | .decideByBrowserBinding _ binding _ _ _ => some binding

/-- The CSRF value that a call sets. -/
def Call.csrf? : Call → Option String
  | .setBrowserCSRF _ _ csrf _ | .bindBrowserSession _ csrf _ _ _ _ _ => some csrf
  | _ => none

/-- The call records the decision on an authorization. -/
def Decides (c : Call) (db : Db) : Prop :=
  (∃ a ∈ db.authorizations.get? id, a.consumedAt = none) ∧
    ∃ a ∈ (exec c db).authorizations.get? id, a.consumedAt ≠ none

/-- The call accepts a CSRF value for an authorization. -/
def Accepts (csrf : String) (c : Call) (db : Db) : Prop :=
  (∃ binding now, c = .consumeBrowserFlow binding csrf now) ∧
    (∃ a ∈ db.authorizations.get? id, a.browserCSRFHash = some csrf) ∧
    ∃ a ∈ (exec c db).authorizations.get? id, a.browserCSRFHash = none

/-- A decision with the browser binding comes before the expiry, also after the policy has answered.
-/
def InTime : Call → Db → Prop
  | .decideByBrowserBinding _ binding _ _ later, db =>
    ∀ r ∈ db.lockBrowserAuthorization binding, later < r.2.expiresAt
  | _, _ => True

/-- What a call does to an authorization. -/
structure Authorization.Moves (c : Call) (id : ℕ) (a a' : Authorization) : Prop where
  browserDigest : a'.browserDigest = a.browserDigest
  expiresAt : a'.expiresAt = a.expiresAt
  consumed : a.consumedAt ≠ none → a' = a
  decided : a'.consumedAt = a.consumedAt ∨ c.binding? = some a.browserDigest ∧ 0 < a.userId
  userId : a'.userId = a.userId ∨ a.userId = 0 ∧ ∃ secret now permitted later,
    c = .trustedPrepareConsent id a.browserDigest a'.userId secret now permitted later
  csrf : a'.browserCSRFHash = a.browserCSRFHash ∨ a'.browserCSRFHash = none ∨
    a'.browserCSRFHash = c.csrf?

/-- What a call does. -/
inductive Does (c : Call) (db : Db) : Db → Prop
  | same : Does c db db
  | begun (a : Authorization) : Does c db { db with authorizations := db.authorizations.insert a }
  | moved (id : ℕ) (a : Authorization) (f : Authorization → Authorization)
      (ha : db.authorizations.get? id = some a) (hmoves : a.Moves c id (f a)) :
      Does c db (db.update id f)
  | decided (id : ℕ) (a : Authorization) (approve : Bool) (now : ℤ)
      (ha : db.authorizations.get? id = some a) (hopen : a.consumedAt = none) (huser : 0 < a.userId)
      (hbinding : c.binding? = some a.browserDigest) (htime : InTime c db → now < a.expiresAt) :
      Does c db (db.record id a.userId approve now)

variable {c : Call} {db db' : Db} {id : ℕ} {a a' : Authorization} {csrf : String}

theorem lockBrowserAuthorization_spec {binding : String}
    (h : db.lockBrowserAuthorization binding = some (id, a)) :
    db.authorizations.get? id = some a := by
  unfold Db.lockBrowserAuthorization at h
  split at h
  next _ heq =>
    cases h
    exact exists_get?_of_mem (mem_of_mem_filter (heq ▸ mem_singleton_self (id, a)))
  · cases h

theorem call_does (h : c.call db = .ok db') : Does c db db' := by
  cases c with
  | begin =>
    rw [← pure_eq_ok.1 h]
    exact .begun _
  | setBrowserCSRF handle =>
    simp only [Call.call, eq_ok] at h
    obtain ⟨-, a, ha, ⟨⟨hopen, -⟩, -⟩, rfl⟩ := h
    exact .moved handle a _ ha ⟨rfl, rfl, absurd hopen, .inl rfl, .inl rfl, .inr (.inr rfl)⟩
  | consumeBrowserFlow =>
    simp only [Call.call, eq_ok] at h
    obtain ⟨-, ⟨id, a⟩, ha, ⟨⟨hopen, -⟩, -⟩, rfl⟩ := h
    exact .moved id a _ (lockBrowserAuthorization_spec ha)
      ⟨rfl, rfl, absurd hopen, .inl rfl, .inl rfl, .inr (.inl rfl)⟩
  | bindBrowserSession =>
    simp only [Call.call, eq_ok] at h
    obtain ⟨-, ⟨id, a⟩, ha, ⟨⟨hopen, -⟩, -⟩, rfl⟩ := h
    exact .moved id a _ (lockBrowserAuthorization_spec ha)
      ⟨rfl, rfl, absurd hopen, .inl rfl, .inl rfl, .inr (.inr rfl)⟩
  | trustedPrepareConsent handle _ _ secret now permitted later =>
    simp only [Call.call, eq_ok] at h
    obtain ⟨-, a, ha, ⟨⟨hopen, -, rfl⟩, hu⟩, -, -, rfl⟩ := h
    exact .moved handle a _ ha ⟨rfl, rfl, absurd hopen, .inl rfl,
      .inr ⟨hu, secret, now, permitted, later, rfl⟩, .inl rfl⟩
  | decide approve handle _ _ _ _ later =>
    simp only [Call.call, eq_ok] at h
    obtain ⟨-, a, ha, ⟨⟨hopen, -, rfl⟩, hu, -⟩, -, hlater, rfl⟩ := h
    exact .decided handle a approve later ha hopen hu rfl fun _ => hlater
  | decideByBrowserBinding approve _ _ _ later =>
    simp only [Call.call, eq_ok] at h
    obtain ⟨-, ⟨id, a⟩, ha, ⟨⟨hopen, -, rfl⟩, hu, -⟩, -, rfl⟩ := h
    exact .decided id a approve later (lockBrowserAuthorization_spec ha) hopen hu rfl
      fun ht => ht (id, a) ha

theorem exec_does (c : Call) (db : Db) : Does c db (exec c db) := by
  obtain hsame | hok := getD_cases (c.call db) db
  · rw [exec, hsame]
    exact .same
  · exact call_does hok

theorem Authorization.Moves.refl (a : Authorization) : a.Moves c id a :=
  ⟨rfl, rfl, fun _ => rfl, .inl rfl, .inl rfl, .inl rfl⟩

/-- An authorization stays, and a call moves it. -/
theorem Does.kept (h : Does c db db') (ha : db.authorizations.get? id = some a) :
    ∃ a', db'.authorizations.get? id = some a' ∧ a.Moves c id a' := by
  have hmodify {j : ℕ} {b : Authorization} (f : Authorization → Authorization)
      (hb : db.authorizations.get? j = some b) (hf : b.Moves c j (f b)) :
      ∃ a', (db.authorizations.modify j f).get? id = some a' ∧ a.Moves c id a' := by
    refine exists_get?_modify f ha (fun _ => .refl a) fun hj => ?_
    subst hj
    exact mem_unique hb ha ▸ hf
  cases h with
  | same => exact ⟨a, ha, .refl a⟩
  | begun => exact ⟨a, get?_insert_of_get? ha, .refl a⟩
  | moved _ _ f hb hf => exact hmodify f hb hf
  | decided _ _ approve now hb hopen huser hbinding =>
    have hrow := hmodify (fun a => { a with consumedAt := some now }) hb
      ⟨rfl, rfl, absurd hopen, .inr ⟨hbinding, huser⟩, .inl rfl, .inl rfl⟩
    cases approve <;> exact hrow

/-- What holds in every run: the authorization of a family was decided for its user, before it
expired if `timely` holds. -/
structure Sound (timely : Prop) (db : Db) : Prop where
  grants : ∀ g f, db.grants.get? g = some f → ∃ a, db.authorizations.get? f.authorization = some a ∧
    a.consumedAt ≠ none ∧ 0 < f.userId ∧ f.userId = a.userId ∧ (timely → f.createdAt < a.expiresAt)
  families : ∀ g g' f f', db.grants.get? g = some f → db.grants.get? g' = some f' →
    f.authorization = f'.authorization → g = g'

theorem sound_exec {timely : Prop} (ht : timely → InTime c db) (h : Sound timely db) :
    Sound timely (exec c db) := by
  have hd := exec_does c db
  generalize exec c db = db' at hd ⊢
  have hold (g : ℕ) (f : Grant) (hf : db.grants.get? g = some f) : ∃ a,
      db'.authorizations.get? f.authorization = some a ∧ a.consumedAt ≠ none ∧ 0 < f.userId ∧
        f.userId = a.userId ∧ (timely → f.createdAt < a.expiresAt) := by
    obtain ⟨a, ha, hcon, hf⟩ := h.grants g f hf
    obtain ⟨a', ha', hm⟩ := hd.kept ha
    rw [hm.consumed hcon] at ha'
    exact ⟨a, ha', hcon, hf⟩
  cases hd with
  | same => exact h
  | begun | moved => exact ⟨hold, h.families⟩
  | decided id a approve now ha hopen huser _ htime =>
    cases approve with
    | false => exact ⟨hold, h.families⟩
    | true =>
      -- the authorization was not decided before, so that no family came from it
      have hfresh {g : ℕ} {f : Grant} (hf : db.grants.get? g = some f) : f.authorization ≠ id := by
        rintro rfl
        obtain ⟨b, hb, hcon, -⟩ := h.grants g f hf
        exact hcon (mem_unique ha hb ▸ hopen)
      refine ⟨fun g f hf => ?_, fun g g' f f' hf hf' heq => ?_⟩
      · obtain ⟨-, rfl⟩ | hf := get?_insert_cases hf
        · refine ⟨{ a with consumedAt := some now }, ?_, nofun, huser, rfl, htime ∘ ht⟩
          exact (get?_modify_self _ _ _).trans (congrArg _ ha)
        · exact hold g f hf
      · obtain ⟨rfl, rfl⟩ | hf := get?_insert_cases hf <;>
          obtain ⟨rfl, rfl⟩ | hf' := get?_insert_cases hf'
        · rfl
        · exact absurd heq.symm (hfresh hf')
        · exact absurd heq (hfresh hf)
        · exact h.families g g' f f' hf hf' heq

theorem sound_empty (timely : Prop) : Sound timely .empty := ⟨nofun, nofun⟩

/-- **Consent is bound, single and timely**: in every run an authorization has at most one family,
which is for its user. `Moves` says that an authorization is decided only by a call with its browser
binding, and for the one user that `TrustedPrepareConsent` has bound. It is decided at most once,
and a CSRF value that is accepted is not accepted again until it is set again. Codes are created
before the expiry if the decisions with the browser binding are in time. -/
theorem consent_single (steps : List Call) : let db := run exec .empty steps
    (∀ g g' f f', db.grants.get? g = some f → db.grants.get? g' = some f' →
      f.authorization = f'.authorization → g = g') ∧
    (∀ g f, db.grants.get? g = some f → ∃ a, db.authorizations.get? f.authorization = some a ∧
      a.consumedAt ≠ none ∧ 0 < f.userId ∧ f.userId = a.userId ∧
      (Along exec InTime .empty steps → f.createdAt < a.expiresAt)) ∧
    (∀ c id a, db.authorizations.get? id = some a →
      ∃ a', (exec c db).authorizations.get? id = some a' ∧ a.Moves c id a') ∧
    (∀ c id later, Decides id c db → ¬Occurs exec (Decides id) (exec c db) later) ∧
    ∀ c id csrf later, Accepts id csrf c db →
      Along exec (fun c _ => c.csrf? ≠ some csrf) (exec c db) later →
      ¬Occurs exec (Accepts id csrf) (exec c db) later := by
  intro db
  have hdb : Sound (Along exec InTime .empty steps) db := by
    by_cases ht : Along exec InTime .empty steps
    · exact run_rule (fun _ _ ht => sound_exec fun _ => ht) (sound_empty _) ht
    · exact run_rule_any (P := Sound _) (fun _ _ => sound_exec (absurd · ht)) (sound_empty _) steps
  refine ⟨hdb.families, hdb.grants, fun c id a => (exec_does c db).kept, fun c id later hd => ?_,
    fun c id csrf later hacc hlater => ?_⟩
  · obtain ⟨-, a, ha, hcon⟩ := hd
    have hany : Along exec (fun _ _ => True) (exec c db) later :=
      along_of_forall (fun _ _ => trivial) _ _
    -- a decided authorization stays as it is
    refine not_occurs (Q := fun db => db.authorizations.get? id = some a)
      (fun db c _ hdb hd => ?_) (fun db c _ hdb => ?_) ha hany
    · obtain ⟨⟨b, hb, hopen⟩, -⟩ := hd
      exact hcon (mem_unique hdb hb ▸ hopen)
    · obtain ⟨a', ha', hm⟩ := (exec_does c db).kept hdb
      rwa [hm.consumed hcon] at ha'
  · obtain ⟨-, -, a, ha, hnone⟩ := hacc
    refine not_occurs
      (Q := fun db => ∃ a, db.authorizations.get? id = some a ∧ a.browserCSRFHash ≠ some csrf)
      (fun db c _ ⟨a, ha, hne⟩ hacc => ?_) (fun db c hset ⟨a, ha, hne⟩ => ?_)
      ⟨a, ha, hnone ▸ nofun⟩ hlater
    · obtain ⟨-, ⟨b, hb, heq⟩, -⟩ := hacc
      exact hne (mem_unique ha hb ▸ heq)
    · obtain ⟨a', ha', hm⟩ := (exec_does c db).kept ha
      refine ⟨a', ha', ?_⟩
      obtain heq | heq | heq := hm.csrf <;> rw [heq]
      · exact hne
      · exact nofun
      · exact hset

/-- A decision with the browser binding just before the expiry, on which the policy answers later. -/
def decidedAt (later : ℤ) : Db :=
  let binding := "0123456789abcdef0123456789abcdef"
  run exec .empty [.begin binding 0, .trustedPrepareConsent 1 binding 7 "secret" 1 true 2,
    .decideByBrowserBinding true binding 299998 true later]

/-- The policy answers in time. -/
theorem consent_single_timely : ∃ f a, (decidedAt 299999).grants.get? 1 = some f ∧
    (decidedAt 299999).authorizations.get? f.authorization = some a ∧ f.createdAt < a.expiresAt := by
  obtain ⟨f, hf⟩ := isSome_iff_exists.1 (show ((decidedAt 299999).grants.get? 1).isSome by decide +kernel)
  obtain ⟨a, ha, -, -, -, htime⟩ := (consent_single _).2.1 1 f hf
  refine ⟨f, a, hf, ha, htime ⟨trivial, trivial, ?_, trivial⟩⟩
  unfold InTime
  decide +kernel

/-- The policy answers when the authorization has expired, and the code is created all the same. -/
theorem late_code : ((decidedAt 300001).grants.get? 1).map Grant.createdAt = some 300001 ∧
      ((decidedAt 300001).authorizations.get? 1).map Authorization.expiresAt = some 300000 := by
  decide +kernel

end LmmApi.OAuth
