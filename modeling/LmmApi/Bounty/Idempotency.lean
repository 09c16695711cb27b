import LmmApi.Bounty.Rest

/-!
# Idempotent tips move the quota once

The records of the idempotency keys are exactly those of the requests whose transaction committed
(`Consistent`), whatever the interleaving: the unique index lets one request of a user and key
commit, and every other one that succeeds answers with the result recorded by it.

`Move` says once what a step of the server can do; `tip_idempotent` collects what follows for the
requests that share a user and a key.
-/

namespace LmmApi.Bounty

open Guarded Go Option Table RestStore

variable {sha256 : String → String} {s s' : Server} {e : RestEvent}

/-! ## Keys and payloads -/

/-- Two requests of one user with one idempotency key. -/
def TipRequest.SameKey (r r' : TipRequest) : Prop :=
  r.ownerUserId = r'.ownerUserId ∧ r.idempotencyKey = r'.idempotencyKey

variable {r r' : TipRequest} {spec spec' : RestSpec} {k i j : ℕ} {phase : Phase} {a b : Call}

theorem TipRequest.payload_eq_of_payloadJson
    (h : r.payloadJson = r'.payloadJson) : r.payload = r'.payload := by
  simp only [payloadJson, Json.obj.injEq, List.cons.injEq, Prod.mk.injEq, Json.int.injEq,
    Json.str.injEq, Int.natCast_inj, true_and, and_true] at h
  obtain ⟨hcha, hquo, hnote⟩ := h
  simp [payload, hcha, hquo, hnote]

/-- The payload hash determines the payload. -/
theorem TipRequest.payload_eq_of_spec (hsha : Function.Injective sha256)
    (h : (r.spec sha256).payloadHash = (r'.spec sha256).payloadHash) : r.payload = r'.payload :=
  payload_eq_of_payloadJson (Json.encode_injective (hsha h))

variable {result : TipResult} {o : RestOperation} {r : TipRequest} {call : Call} {env : Env}
  {store : RestStore} {i : ℕ} {spec : RestSpec} {db : Db}

/-- The records that requests with the same key name are the same. -/
theorem TipRequest.SameKey.names (h : r.SameKey r')
    (ho : (r.spec sha256).Names o) : (r'.spec sha256).Names o := by
  obtain ⟨hu, hk⟩ := h
  obtain ⟨h₁, h₂, h₃⟩ := ho
  refine ⟨h₁.trans hu, h₂, h₃.trans ?_⟩
  simp [spec, hk]

theorem TipRequest.SameKey.symm (h : r.SameKey r') : r'.SameKey r := ⟨h.1.symm, h.2.symm⟩

/-! ## Records -/

/-- The record of a committed request. -/
def Backs (spec : RestSpec) (result : TipResult) (o : RestOperation) : Prop :=
  spec.Names o ∧ o.payloadHash = spec.payloadHash ∧ o.resultJson = result.toJson.encode

/-- The result that is recorded for a specification. -/
def RestStore.Records (store : RestStore) (spec : RestSpec) (result : TipResult) : Prop :=
  ∃ k o, store.operations.get? k = some o ∧ Backs spec result o

theorem TipResult.eq_of_encode {r r' : TipResult} (h : r.toJson.encode = r'.toJson.encode) :
    r = r' := by
  have hjson := congrArg ofJson (Json.encode_injective h)
  rw [ofJson_toJson, ofJson_toJson] at hjson
  exact some.inj hjson

/-- What is decoded from a record of the server is the recorded result. -/
theorem decode_backs {r result : TipResult} (hb : Backs spec' r o) (hnam : spec.Names o)
    (h : decodeOpenSourceBountyRESTTipResult o spec = .ok result) : Backs spec result o := by
  simp only [decodeOpenSourceBountyRESTTipResult, require_bind] at h
  obtain ⟨hpay, -, hdec⟩ := h
  rw [hb.2.2, Json.decode_encode, bind_some, TipResult.ofJson_toJson] at hdec
  cases hdec
  exact ⟨hnam, hpay, hb.2.2⟩

theorem answer_of_mismatch (h : o.payloadHash ≠ spec.payloadHash) :
    answer spec o = .failed (bountyError .idempotencyMismatch
      "Idempotency-Key was already used for a different bounty tip") := by
  have hdec : decodeOpenSourceBountyRESTTipResult o spec = .error (bountyError .idempotencyMismatch
        "Idempotency-Key was already used for a different bounty tip") := by
    rw [decodeOpenSourceBountyRESTTipResult]
    exact bind_eq_error.2 (.inl (require_eq_error.2 ⟨h, rfl⟩))
  rw [answer, hdec]

theorem RestStore.find?_eq_some
    (h : store.find? spec = some (k, o)) : store.operations.get? k = some o ∧ spec.Names o :=
  first?_eq_some h

theorem RestStore.find?_eq_none (h : store.find? spec = none) (ho : store.operations.get? k = some o) : ¬spec.Names o :=
  first?_eq_none h ho

/-- A reservation is completed: the table gains the record of the result. -/
theorem complete_reservation (env : Env) (operations : Table RestOperation) (o : RestOperation)
    (ho : o.completedAt = 0) (result : TipResult) : ∃ operations',
      completeOpenSourceBountyRESTOperationTx env operations.next result (operations.insert o) =
        .ok operations' ∧ ∀ k, operations'.get? k = if k = operations.next then
        some { o with resultJson := result.toJson.encode, completedAt := env.now }
      else operations.get? k := by
  have hold : operations.count (fun i o => i = operations.next ∧ o.completedAt = 0) = 0 := by
    refine count_eq_zero_iff.2 fun i o hi h => ?_
    rw [h.1, get?_next] at hi
    cases hi
  have hcnt : (operations.insert o).count
      (fun i o => i = operations.next ∧ o.completedAt = 0) = 1 := by
    rw [count_insert, hold, if_pos ⟨rfl, ho⟩]
    rfl
  refine ⟨_, bind_eq_ok.2 ⟨(), require_eq_ok.2 hcnt, rfl⟩, fun k => ?_⟩
  rw [get?_modifyWhere, get?_insert]
  by_cases hk : k = operations.next
  · simp [hk, ho]
  · simp [hk]

/-- The transaction of a reserved tip commits exactly when the tip does, and then records its
result. -/
theorem reservedTipTx_of_tip (spec : RestSpec)
    (h : tipOpenSourceBountyChallengeTx env r.ownerUserId r.challengeId r.quota
      (trimSpace r.note) store.db = .ok (result, db)) :
    ∃ operations o, reservedTipTx env r spec store = .ok (result, ⟨db, operations⟩) ∧
      Backs spec result o ∧ ∀ k, operations.get? k =
        if k = store.operations.next then some o else store.operations.get? k := by
  obtain ⟨operations, hcp, hg⟩ := complete_reservation env store.operations
    { userId := spec.userId, operation := spec.operation,
      idempotencyKeyHash := spec.idempotencyKeyHash, payloadHash := spec.payloadHash,
      createdAt := env.now } rfl result
  refine ⟨operations, _, ?_, ⟨⟨rfl, rfl, rfl⟩, rfl, rfl⟩, hg⟩
  rw [reservedTipTx]
  exact bind_eq_ok.2 ⟨_, h, bind_eq_ok.2 ⟨_, hcp, rfl⟩⟩

theorem tip_of_reservedTipTx {store store' : RestStore}
    (h : reservedTipTx env r spec store = .ok (result, store')) :
    tipOpenSourceBountyChallengeTx env r.ownerUserId r.challengeId r.quota (trimSpace r.note)
      store.db = .ok (result, store'.db) := by
  simp only [reservedTipTx, bind_eq_ok, pure_eq_ok, Prod.exists] at h
  obtain ⟨_, db, htip, _, -, h⟩ := h
  cases h
  exact htip

/-! ## What a step can do -/

/-- **What a step of the server can do.** -/
inductive Move (sha256 : String → String) (s : Server) (e : RestEvent) : Server → Prop
  | same : Move sha256 s e s
  | arrive (request : TipRequest) (phase : Phase) (noTarget : e.target = none)
      (noResult : phase.result? = none) :
      Move sha256 s e { s with calls := s.calls.insert ⟨request, phase⟩ }
  | other (db : Db) (noTarget : e.target = none) :
      Move sha256 s e { s with store := { s.store with db } }
  | quiet (i : ℕ) (call : Call) (phase : Phase) (get : s.calls.get? i = some call)
      (unfinished : call.phase.finished = false) (noResult : phase.result? = none) :
      Move sha256 s e (s.setPhase i phase)
  | replay (i : ℕ) (call : Call) (result : TipResult) (k : ℕ) (o : RestOperation)
      (get : s.calls.get? i = some call) (unfinished : call.phase.finished = false)
      (row : s.store.operations.get? k = some o) (names : (call.request.spec sha256).Names o)
      (decoded : decodeOpenSourceBountyRESTTipResult o (call.request.spec sha256) = .ok result) :
      Move sha256 s e (s.setPhase i (.replayed result))
  | commit (i : ℕ) (call : Call) (result : TipResult) (store : RestStore) (o : RestOperation)
      (target : e.target = some i) (get : s.calls.get? i = some call)
      (missed : call.phase = .missed) (free : s.store.find? (call.request.spec sha256) = none)
      (tip : tipOpenSourceBountyChallengeTx e.env call.request.ownerUserId call.request.challengeId
        call.request.quota (trimSpace call.request.note) s.store.db = .ok (result, store.db))
      (backs : Backs (call.request.spec sha256) result o)
      (rows : ∀ k, store.operations.get? k =
        if k = s.store.operations.next then some o else s.store.operations.get? k) :
      Move sha256 s e { s.setPhase i (.committed result) with store }

theorem begin_result (r : TipRequest) : (r.begin_ sha256).result? = none := by
  unfold TipRequest.begin_
  split <;> rfl

/-- The answer from a record is a replay or a failure. -/
theorem move_of_answer (hi : s.calls.get? i = some call) (hunf : call.phase.finished = false)
    (ho : s.store.find? (call.request.spec sha256) = some (k, o)) :
    Move sha256 s e (s.setPhase i (answer (call.request.spec sha256) o)) := by
  obtain ⟨hr, hnam⟩ := find?_eq_some ho
  unfold answer
  split
  · rename_i result hdec
    exact .replay i call result k o hi hunf hr hnam hdec
  · exact .quiet i call _ hi hunf rfl

theorem advance_move (he : e.target = some i)
    (hi : s.calls.get? i = some call) (hunf : call.phase.finished = false) :
    Move sha256 s e { s.setPhase i (call.advance sha256 e.env s.store).1 with
      store := (call.advance sha256 e.env s.store).2 } := by
  cases hph : call.phase <;> cases hfd : s.store.find? (call.request.spec sha256) <;>
    simp only [Call.advance, hph, hfd]
  case looking.none => exact .quiet i call .missed hi hunf rfl
  case looking.some => exact move_of_answer hi hunf hfd
  case missed.none =>
    cases htx : reservedTipTx e.env call.request (call.request.spec sha256) s.store with
    | ok r =>
      obtain ⟨result, store⟩ := r
      have htip := tip_of_reservedTipTx htx
      obtain ⟨_, o, hok, hbac, hrs⟩ := reservedTipTx_of_tip (call.request.spec sha256) htip
      obtain ⟨-, hsto⟩ := Prod.mk.inj (Except.ok.inj (htx.symm.trans hok))
      exact .commit i call result store o he hi hph hfd htip hbac (hsto ▸ hrs)
    | error failure => exact .quiet i call (.failed failure) hi hunf rfl
  case missed.some => exact .quiet i call .raced hi hunf rfl
  case raced.none => exact .quiet i call (.failed .recordNotFound) hi hunf rfl
  case raced.some => exact move_of_answer hi hunf hfd
  all_goals simp [hph, Phase.finished] at hunf

theorem step_move (s : Server) (e : RestEvent) : Move sha256 s e (s.step sha256 e) := by
  unfold Server.step
  cases hact : e.action with
  | call request => exact .arrive request _ (by simp [RestEvent.target, hact]) (begin_result _)
  | advance =>
    dsimp only
    split
    · exact .same
    next _ hi =>
      split
      · exact .same
      next hunf =>
        exact advance_move (by simp [RestEvent.target, hact]) hi (Bool.eq_false_of_not_eq_true hunf)
  | abort i failure =>
    dsimp only
    split
    · exact .same
    next call hi =>
      split
      · exact .same
      next hunf => exact .quiet i call (.failed failure) hi (Bool.eq_false_of_not_eq_true hunf) rfl
  | other => exact .other _ (by simp [RestEvent.target, hact])

/-- A request keeps what it asks for, and, once it has returned, what it returned. -/
theorem Move.call_persists (h : Move sha256 s e s') (hi : s.calls.get? i = some call) :
    ∃ call', s'.calls.get? i = some call' ∧ call'.request = call.request ∧
      (call.phase.finished = true → call' = call) := by
  -- A request that is put into another phase had not returned.
  have put {j : ℕ} {b : Call} (phase : Phase) (hb : s.calls.get? j = some b)
      (hunf : b.phase.finished = false) : ∃ call', (s.setPhase j phase).calls.get? i = some call' ∧
        call'.request = call.request ∧ (call.phase.finished = true → call' = call) := by
    refine exists_get?_modify _ hi (fun _ => ⟨rfl, fun _ => rfl⟩) fun hij => ⟨rfl, ?_⟩
    subst hij
    obtain rfl := mem_unique hi hb
    intro hfin
    simp [hunf] at hfin
  cases h with
  | same | other => exact ⟨call, hi, rfl, fun _ => rfl⟩
  | arrive => exact ⟨call, get?_insert_of_get? hi, rfl, fun _ => rfl⟩
  | quiet _ _ phase get unfinished => exact put phase get unfinished
  | replay _ _ _ _ _ get unfinished => exact put _ get unfinished
  | commit _ _ _ _ _ _ get missed => exact put _ get (by rw [missed]; rfl)

/-! ## Records and committed requests -/

/-- The records are those of the committed requests. -/
structure Consistent (sha256 : String → String) (s : Server) : Prop where
  /-- Every result a request returned is recorded. -/
  succeeded : ∀ i call result, s.calls.get? i = some call → call.phase.result? = some result →
    s.store.Records (call.request.spec sha256) result
  /-- Every record is that of a committed request. -/
  recorded : ∀ k o, s.store.operations.get? k = some o → ∃ i call result,
    s.calls.get? i = some call ∧ call.phase = .committed result ∧
      Backs (call.request.spec sha256) result o
  /-- The unique index. -/
  index : ∀ k k' o o' spec, s.store.operations.get? k = some o →
    s.store.operations.get? k' = some o' → RestSpec.Names spec o → spec.Names o' → k = k'
  /-- One request of a key commits. -/
  once : ∀ i j a b r r', s.calls.get? i = some a → s.calls.get? j = some b →
    a.phase = .committed r → b.phase = .committed r' → a.request.SameKey b.request → i = j

theorem consistent_start (db : Db) : Consistent sha256 (.start db) := by
  constructor <;> simp [Server.start, get?_empty]

/-- A request that has not returned takes a step that commits nothing. -/
theorem consistent_setPhase (hc : Consistent sha256 s)
    (hi : s.calls.get? i = some call) (hunf : call.phase.finished = false)
    (hres : ∀ result, phase.result? = some result →
      s.store.Records (call.request.spec sha256) result)
    (hnew : ∀ result, phase ≠ .committed result) : Consistent sha256 (s.setPhase i phase) where
  succeeded j b result hb hr := by
    rcases get?_modify_cases hi hb with ⟨-, rfl⟩ | ⟨-, hb⟩
    · exact hres result hr
    · exact hc.succeeded j b result hb hr
  recorded k o ho := by
    obtain ⟨j, b, r, hb, hcom, hba⟩ := hc.recorded k o ho
    have hj : j ≠ i := by
      rintro rfl
      obtain rfl := mem_unique hb hi
      simp [hcom, Phase.finished] at hunf
    exact ⟨j, b, r, (get?_modify_of_ne _ _ hj).trans hb, hcom, hba⟩
  index := hc.index
  once j j' a b r r' ha hb har hbr hk := by
    rcases get?_modify_cases hi ha with ⟨-, rfl⟩ | ⟨-, ha⟩
    · exact absurd har (hnew r)
    · rcases get?_modify_cases hi hb with ⟨-, rfl⟩ | ⟨-, hb⟩
      · exact absurd hbr (hnew r')
      · exact hc.once j j' a b r r' ha hb har hbr hk

theorem RestSpec.Names.transfer {o o' : RestOperation} (h : spec.Names o)
    (h' : spec.Names o') (hnam : spec'.Names o) : spec'.Names o' :=
  ⟨h'.1.trans (h.1.symm.trans hnam.1), h'.2.1.trans (h.2.1.symm.trans hnam.2.1),
    h'.2.2.trans (h.2.2.symm.trans hnam.2.2)⟩

/-- A request whose key has no record commits and is recorded. -/
theorem consistent_commit (hc : Consistent sha256 s) (hi : s.calls.get? i = some call)
    (hmis : call.phase = .missed) (hfr : s.store.find? (call.request.spec sha256) = none)
    (hba : Backs (call.request.spec sha256) result o) (hrs : ∀ k, store.operations.get? k =
      if k = s.store.operations.next then some o else s.store.operations.get? k) :
    Consistent sha256 { s.setPhase i (.committed result) with store } := by
  have kept {k o'} (ho' : s.store.operations.get? k = some o') :
      store.operations.get? k = some o' := by
    rw [hrs, if_neg (Nat.ne_of_lt (lt_next_of_get? ho')), ho']
  have row {k o'} (ho' : store.operations.get? k = some o') :
      k = s.store.operations.next ∧ o' = o ∨ s.store.operations.get? k = some o' := by
    rw [hrs] at ho'
    split at ho'
    · exact .inl ⟨‹_›, (some.inj ho').symm⟩
    · exact .inr ho'
  -- No record of this key was there, so no request of this key had committed.
  have alone {j b r} (hb : s.calls.get? j = some b) (hbr : b.phase = .committed r) :
      ¬b.request.SameKey call.request := by
    intro hkey
    obtain ⟨k, o', ho', hba', -⟩ := hc.succeeded j b r hb (by rw [hbr]; rfl)
    exact find?_eq_none hfr ho' (hkey.names hba')
  constructor
  · intro j b r hb hr
    rcases get?_modify_cases hi hb with ⟨-, rfl⟩ | ⟨-, hb⟩
    · cases hr
      exact ⟨_, o, by rw [hrs, if_pos rfl], hba⟩
    · obtain ⟨k, o', ho', hba'⟩ := hc.succeeded j b r hb hr
      exact ⟨k, o', kept ho', hba'⟩
  · intro k o' ho'
    rcases row ho' with ⟨-, rfl⟩ | ho'
    · refine ⟨i, { call with phase := .committed result }, result, ?_, rfl, hba⟩
      simp [Server.setPhase, get?_modify_self, hi]
    · obtain ⟨j, b, r, hb, hbr, hba'⟩ := hc.recorded k o' ho'
      have hj : j ≠ i := by
        rintro rfl
        obtain rfl := mem_unique hb hi
        simp [hmis] at hbr
      exact ⟨j, b, r, (get?_modify_of_ne _ _ hj).trans hb, hbr, hba'⟩
  · intro k k' o₁ o₂ spec h₁ h₂ hn₁ hn₂
    rcases row h₁ with ⟨hk, rfl⟩ | h₁
    · rcases row h₂ with ⟨hk', -⟩ | h₂
      · exact hk.trans hk'.symm
      · exact absurd (hn₁.transfer hn₂ hba.1) (find?_eq_none hfr h₂)
    · rcases row h₂ with ⟨-, rfl⟩ | h₂
      · exact absurd (hn₂.transfer hn₁ hba.1) (find?_eq_none hfr h₁)
      · exact hc.index k k' o₁ o₂ spec h₁ h₂ hn₁ hn₂
  · intro j j' a b r r' ha hb har hbr hkey
    rcases get?_modify_cases hi ha with ⟨hj, rfl⟩ | ⟨-, ha⟩
    · rcases get?_modify_cases hi hb with ⟨hj', -⟩ | ⟨-, hb⟩
      · exact hj.trans hj'.symm
      · exact absurd hkey.symm (alone hb hbr)
    · rcases get?_modify_cases hi hb with ⟨-, rfl⟩ | ⟨-, hb⟩
      · exact absurd hkey (alone ha har)
      · exact hc.once j j' a b r r' ha hb har hbr hkey

theorem Move.consistent (h : Move sha256 s e s') (hc : Consistent sha256 s) :
    Consistent sha256 s' := by
  cases h with
  | same => exact hc
  | arrive request phase _ noResult =>
    -- The new request has not succeeded.
    have hnew : ∀ r, phase ≠ .committed r := by
      rintro r rfl
      simp [Phase.result?] at noResult
    constructor
    · intro i call result hi hr
      rcases get?_insert_cases hi with ⟨-, rfl⟩ | hi
      · simp [noResult] at hr
      · exact hc.succeeded i call result hi hr
    · intro k o ho
      obtain ⟨i, call, result, hi, hcall⟩ := hc.recorded k o ho
      exact ⟨i, call, result, get?_insert_of_get? hi, hcall⟩
    · exact hc.index
    · intro i j a b r r' ha hb har hbr hk
      rcases get?_insert_cases ha with ⟨-, rfl⟩ | ha
      · exact absurd har (hnew r)
      · rcases get?_insert_cases hb with ⟨-, rfl⟩ | hb
        · exact absurd hbr (hnew r')
        · exact hc.once i j a b r r' ha hb har hbr hk
  | other => exact ⟨hc.succeeded, hc.recorded, hc.index, hc.once⟩
  | quiet _ _ _ get unfinished noResult =>
    refine consistent_setPhase hc get unfinished (fun r hr => ?_) ?_
    · simp [noResult] at hr
    · rintro r rfl
      simp [Phase.result?] at noResult
  | replay _ _ _ k o get unfinished row names decoded =>
    refine consistent_setPhase hc get unfinished (fun r hr => ?_) (by simp)
    cases hr
    obtain ⟨_, _, _, _, _, hba⟩ := hc.recorded k o row
    exact ⟨k, o, row, decode_backs hba names decoded⟩
  | commit _ _ _ _ _ _ get missed free _ backs rows =>
    exact consistent_commit hc get missed free backs rows

theorem consistent_of_runs (h : Server.Runs sha256 (.start db) s) : Consistent sha256 s := by
  induction h with
  | refl => exact consistent_start db
  | tail _ hs ih =>
    obtain ⟨e, rfl⟩ := hs
    exact (step_move _ e).consistent ih

/-! ## Idempotency -/

/-- A request that succeeded returns the same again. -/
theorem call_of_runs (h : Server.Runs sha256 s s')
    (hi : s.calls.get? i = some call) (hfin : call.phase.finished = true) :
    s'.calls.get? i = some call := by
  induction h with
  | refl => exact hi
  | tail _ hs ih =>
    obtain ⟨e, rfl⟩ := hs
    obtain ⟨_, hcall', -, hsa⟩ := (step_move _ e).call_persists ih
    rw [hcall', hsa hfin]

theorem Phase.finished_of_result (h : phase.result? = some result) : phase.finished = true := by
  cases phase <;> simp [Phase.result?, Phase.finished] at h ⊢

/-- The record of a request that succeeded is found by every request with its key. -/
theorem find?_of_sameKey (hc : Consistent sha256 s)
    (hi : s.calls.get? i = some a) (hres : a.phase.result? = some result)
    (hkey : a.request.SameKey r) : ∃ k o, s.store.find? (r.spec sha256) = some (k, o) ∧
      Backs (a.request.spec sha256) result o := by
  obtain ⟨k, o, ho, hb⟩ := hc.succeeded i a result hi hres
  cases hfd : s.store.find? (r.spec sha256) with
  | none => exact absurd (hkey.names hb.1) (find?_eq_none hfd ho)
  | some found =>
    obtain ⟨k', o'⟩ := found
    obtain ⟨ho', hnam⟩ := find?_eq_some hfd
    have hk : k = k' := hc.index k k' o o' _ ho ho' (hkey.names hb.1) hnam
    subst hk
    obtain rfl := mem_unique ho ho'
    exact ⟨k, o, rfl, hb⟩

/-- **A step of a request changes the store only by committing its tip.** -/
theorem store_of_target (he : e.target = some i) : (s.step sha256 e).store = s.store ∨
      ∃ call result, s.calls.get? i = some call ∧ call.phase = .missed ∧
        s.store.find? (call.request.spec sha256) = none ∧
        (s.step sha256 e).calls.get? i = some { call with phase := .committed result } ∧
        tipOpenSourceBountyChallengeTx e.env call.request.ownerUserId call.request.challengeId
          call.request.quota (trimSpace call.request.note) s.store.db =
            .ok (result, (s.step sha256 e).store.db) := by
  have h := @step_move sha256 s e
  generalize s.step sha256 e = s' at h ⊢
  cases h with
  | same | quiet | replay => exact .inl rfl
  | arrive _ _ noTarget | other _ noTarget => simp [he] at noTarget
  | commit _ call result _ _ target get missed free tip =>
    obtain rfl := mem_unique he target
    refine .inr ⟨call, result, get, missed, free, ?_, tip⟩
    simp [Server.setPhase, get?_modify_self, get]

/-- A tip moves its quota from the owner to the participant. -/
theorem moved_of_tip {owner challenge : ℕ} {quota : ℤ} {note : String} {db db' : Db}
    (h : tipOpenSourceBountyChallengeTx env owner challenge quota note db = .ok (result, db')) :
    ∃ c, db.challenges.get? challenge = some c ∧
      Moved db.users db'.users [(owner, -quota), (c.participantUserId, quota)] := by
  simp only [tipOpenSourceBountyChallengeTx, eq_ok] at h
  obtain ⟨c, hc, -, -, -, -, _, hdeb, _, hcr, -, rfl⟩ := h
  exact ⟨c, hc,
    (moved_of_updateWalletQuotaByDelta hdeb).trans (moved_of_updateWalletQuotaByDelta hcr)⟩

/-- Once a request of a user and key has succeeded, no request with that key changes the store. -/
theorem store_of_sameKey (hc : Consistent sha256 s)
    (ha : s.calls.get? i = some a) (hres : a.phase.result? = some result)
    (hb : s.calls.get? j = some b) (hk : a.request.SameKey b.request)
    (he : e.target = some j) : (s.step sha256 e).store = s.store := by
  rcases @store_of_target sha256 s e j he with hs | ⟨_, r, hcall, -, hfr, -⟩
  · exact hs
  · obtain rfl := mem_unique hb hcall
    obtain ⟨k, o, hfd, -⟩ := find?_of_sameKey hc ha hres hk
    rw [hfr] at hfd
    cases hfd

theorem step_advance (hi : s.calls.get? i = some call) (hunf : call.phase.finished = false) :
    s.step sha256 ⟨env, .advance i⟩ = { s.setPhase i (call.advance sha256 env s.store).1 with
      store := (call.advance sha256 env s.store).2 } := by
  simp [Server.step, hi, hunf]

/-- A request that reuses a key with another payload: its next step loses the race, or fails with
the mismatch. -/
theorem advance_of_mismatch (hsha : Function.Injective sha256) (hc : Consistent sha256 s) (ha : s.calls.get? i = some a)
    (hres : a.phase.result? = some result) (hb : s.calls.get? j = some b)
    (hk : a.request.SameKey b.request) (hpay : a.request.payload ≠ b.request.payload)
    (hunf : b.phase.finished = false) (env : Env) :
    ∃ phase, (s.step sha256 ⟨env, .advance j⟩).calls.get? j = some { b with phase } ∧
      (b.phase = .missed ∧ phase = .raced ∨ phase = .failed (bountyError .idempotencyMismatch
          "Idempotency-Key was already used for a different bounty tip")) := by
  obtain ⟨k, o, hfd, hba⟩ := find?_of_sameKey hc ha hres hk
  have hhash : o.payloadHash ≠ (b.request.spec sha256).payloadHash := by
    intro h
    exact hpay (TipRequest.payload_eq_of_spec hsha (hba.2.1.symm.trans h))
  refine ⟨(b.advance sha256 env s.store).1, ?_, ?_⟩
  · rw [step_advance hb hunf]
    simp [Server.setPhase, hb, get?_modify_self]
  · cases hph : b.phase with
    | looking | raced => exact .inr (by simp [Call.advance, hph, hfd, answer_of_mismatch hhash])
    | missed => exact .inl ⟨rfl, by simp [Call.advance, hph, hfd]⟩
    | _ => simp [hph, Phase.finished] at hunf

/-- A key that no committed request has used has no record. -/
theorem find?_of_unused (hsha : Function.Injective sha256) (hc : Consistent sha256 s)
    (h : ∀ i call result, s.calls.get? i = some call →
      call.phase = .committed result → ¬call.request.SameKey r) :
    s.store.find? (r.spec sha256) = none := by
  cases hfd : s.store.find? (r.spec sha256) with
  | none => rfl
  | some found =>
    obtain ⟨k, o⟩ := found
    obtain ⟨ho, hnam⟩ := find?_eq_some hfd
    obtain ⟨i, call, result, hi, hcom, hb⟩ := hc.recorded k o ho
    obtain ⟨⟨hu, -, hk⟩, -⟩ := hb
    exact absurd ⟨hu.symm.trans hnam.1, hsha (hk.symm.trans hnam.2.2)⟩ (h i call result hi hcom)

/-- A request that finds no record goes on to its reservation. -/
theorem step_looking
    (hi : s.calls.get? i = some ⟨r, .looking⟩) (hfr : s.store.find? (r.spec sha256) = none) :
    (s.step sha256 ⟨env, .advance i⟩).store = s.store ∧
      (s.step sha256 ⟨env, .advance i⟩).calls.get? i = some ⟨r, .missed⟩ := by
  rw [step_advance hi rfl]
  simp [Server.setPhase, get?_modify_self, hi, Call.advance, hfr]

/-- A request whose reservation is free and whose tip is possible commits. -/
theorem step_missed
    (hi : s.calls.get? i = some ⟨r, .missed⟩) (hfr : s.store.find? (r.spec sha256) = none)
    (htip : tipOpenSourceBountyChallengeTx env r.ownerUserId r.challengeId r.quota
      (trimSpace r.note) s.store.db = .ok (result, db)) :
    (s.step sha256 ⟨env, .advance i⟩).store.db = db ∧
      (s.step sha256 ⟨env, .advance i⟩).calls.get? i = some ⟨r, .committed result⟩ := by
  obtain ⟨_, o, hok, -⟩ := reservedTipTx_of_tip (r.spec sha256) htip
  rw [step_advance hi rfl]
  simp [Server.setPhase, get?_modify_self, hi, Call.advance, hfr, hok]

/-- A request whose key has no record and whose tip is possible commits, taken step by step. -/
theorem commits_of_unused
    (hfr : s.store.find? (r.spec sha256) = none) (hbeg : r.begin_ sha256 = .looking)
    (htip : tipOpenSourceBountyChallengeTx env r.ownerUserId r.challengeId r.quota
      (trimSpace r.note) s.store.db = .ok (result, db)) :
    let s' := ((s.step sha256 ⟨env, .call r⟩).step sha256 ⟨env, .advance s.calls.next⟩).step sha256
      ⟨env, .advance s.calls.next⟩
    s'.store.db = db ∧ s'.calls.get? s.calls.next = some ⟨r, .committed result⟩ := by
  have hcall : (s.step sha256 ⟨env, .call r⟩).calls.get? s.calls.next = some ⟨r, .looking⟩ := by
    rw [← hbeg]
    exact get?_insert_self _ _
  obtain ⟨hsto, hcall⟩ := step_looking hcall hfr
  refine step_missed hcall ?_ ?_
  · rw [hsto]
    exact hfr
  · rw [hsto]
    exact htip

/-- **Tips with an idempotency key.** In every interleaving, for the requests of one user with one
key: a step of a request changes the store only by committing, which moves its quota once; after one
has succeeded no step of another changes the store; those that succeed return the same result and
had the same payload; one with another payload fails; and while none has committed, the key is free
and a request that is possible commits. -/
theorem tip_idempotent (hsha : Function.Injective sha256) {db : Db}
    (h : Server.Runs sha256 (.start db) s) :
    (∀ e i, e.target = some i → (s.step sha256 e).store = s.store ∨
      ∃ call result c, s.calls.get? i = some call ∧ call.phase.finished = false ∧
        (s.step sha256 e).calls.get? i = some { call with phase := .committed result } ∧
        s.store.db.challenges.get? call.request.challengeId = some c ∧
        Moved s.store.db.users (s.step sha256 e).store.db.users
          [(call.request.ownerUserId, -call.request.quota),
            (c.participantUserId, call.request.quota)]) ∧
    (∀ i a result, s.calls.get? i = some a → a.phase.result? = some result →
      ∀ s', Server.Runs sha256 s s' → ∀ e j b, s'.calls.get? j = some b →
        a.request.SameKey b.request → e.target = some j → (s'.step sha256 e).store = s'.store) ∧
    (∀ i j a b r r', s.calls.get? i = some a → s.calls.get? j = some b →
      a.request.SameKey b.request → a.phase.result? = some r → b.phase.result? = some r' →
      r = r' ∧ a.request.payload = b.request.payload) ∧
    (∀ i j a b r, s.calls.get? i = some a → s.calls.get? j = some b →
      a.request.SameKey b.request → a.request.payload ≠ b.request.payload →
      a.phase.result? = some r → b.phase.finished = false → ∀ env,
      ∃ phase, (s.step sha256 ⟨env, .advance j⟩).calls.get? j = some { b with phase } ∧
        (b.phase = .missed ∧ phase = .raced ∨ phase = .failed (bountyError .idempotencyMismatch
            "Idempotency-Key was already used for a different bounty tip"))) ∧
    ∀ r, (∀ i call result, s.calls.get? i = some call → call.phase = .committed result →
        ¬call.request.SameKey r) →
      s.store.find? (r.spec sha256) = none ∧
      ∀ env result db', r.begin_ sha256 = .looking →
        tipOpenSourceBountyChallengeTx env r.ownerUserId r.challengeId r.quota (trimSpace r.note)
          s.store.db = .ok (result, db') →
        let s' := ((s.step sha256 ⟨env, .call r⟩).step sha256 ⟨env, .advance s.calls.next⟩).step
          sha256 ⟨env, .advance s.calls.next⟩
        s'.store.db = db' ∧ s'.calls.get? s.calls.next = some ⟨r, .committed result⟩ := by
  have hc := consistent_of_runs h
  refine ⟨fun e i he => ?_, fun i a result ha hresult s' hruns e j b hb hkey he => ?_,
    fun i j a b r r' ha hb hkey hr hr' => ?_,
    fun i j a b r ha hb hkey hpayload hr hunfinished env => ?_,
    fun r hunused => ?_⟩
  · rcases @store_of_target sha256 s e i he with
      hsame | ⟨call, result, hcall, hmissed, -, hnew, htip⟩
    · exact .inl hsame
    · obtain ⟨c, hchallenge, hmoved⟩ := moved_of_tip htip
      exact .inr ⟨call, result, c, hcall, by rw [hmissed]; rfl, hnew, hchallenge, hmoved⟩
  · have ha' := call_of_runs hruns ha (Phase.finished_of_result hresult)
    exact store_of_sameKey (consistent_of_runs (h.trans hruns)) ha' hresult hb hkey he
  · -- Both answers are read from the one record of the key.
    obtain ⟨k, o, hfind, hback⟩ := find?_of_sameKey hc ha hr hkey
    obtain ⟨k', o', hfind', hback'⟩ := find?_of_sameKey hc hb hr' ⟨rfl, rfl⟩
    rw [hfind] at hfind'
    obtain ⟨⟩ := some.inj hfind'
    exact ⟨TipResult.eq_of_encode (hback.2.2.symm.trans hback'.2.2),
      TipRequest.payload_eq_of_spec hsha (hback.2.1.symm.trans hback'.2.1)⟩
  · exact advance_of_mismatch hsha hc ha hr hb hkey hpayload hunfinished env
  · have hfree := find?_of_unused hsha hc hunused
    exact ⟨hfree, fun env result db' hbegin htip => commits_of_unused hfree hbegin htip⟩

/-! ## A race -/

def sampleTip : TipRequest where
  ownerUserId := 1
  challengeId := 1
  quota := 250
  note := " Thanks. "
  idempotencyKey := "tip-0001"

/-- SHA-256 on the two texts that `sampleTip` hashes, and without collisions elsewhere. -/
def sampleSha256 (text : String) : String :=
  if text = "tip-0001" then "1d46fb0b89b29429488069cd00f20f4bf7ab817a871ae91bc057354a7dd14733"
  else if text = "\x7b\"challenge_id\":1,\"quota\":250,\"note\":\"Thanks.\"\x7d" then
    "e6d90937e931cde221c26506cdabf758ac64bb1be974795dc90e02d4460cf53c"
  else "-" ++ text

theorem sampleSha256_injective : Function.Injective sampleSha256 := by
  -- The hash of any other text begins with a character that is not a digit.
  have hoth (text : String) (c : Char) (l : List Char) (hc : c ≠ '-') :
      "-" ++ text ≠ String.ofList (c :: l) := by
    intro h
    have hlist := congrArg String.toList h
    simp only [String.toList_append, String.toList_ofList] at hlist
    exact hc (List.cons.inj hlist).1.symm
  intro x y h
  unfold sampleSha256 at h
  split_ifs at h with hx hy hy' hx' hy hy' hy hy'
  · rw [hx, hy]
  · exact absurd h (by decide)
  · exact absurd h.symm (hoth y '1' _ (by decide))
  · exact absurd h (by decide)
  · rw [hx', hy']
  · exact absurd h.symm (hoth y 'e' _ (by decide))
  · exact absurd h (hoth x '1' _ (by decide))
  · exact absurd h (hoth x 'e' _ (by decide))
  · simpa using h

theorem runs_foldl (s : Server) (events : List RestEvent) :
    Server.Runs sha256 s (events.foldl (Server.step sha256) s) := by
  induction events generalizing s with
  | nil => exact .refl
  | cons e _ ih => exact .head ⟨e, rfl⟩ (ih (s.step sha256 e))

/-- Two copies of a request that both miss the record, of which the first goes on. -/
def raceEvents : List RestEvent :=
  [.call sampleTip, .call sampleTip, .advance 1, .advance 2, .advance 1].map fun action =>
    ⟨⟨9, ""⟩, action⟩

/-- The first copy commits; the next step of the second loses the race and moves nothing. -/
theorem tip_idempotent_race :
    let s := raceEvents.foldl (Server.step sampleSha256) (.start (sampleRun
      [.at_ 1 (.createDraft 1 sampleDraft), .at_ 2 (.publish none 1 1),
        .at_ 3 (.accept 2 1 "alice")]).state)
    (walletOf s.store.db.users 1, walletOf s.store.db.users 2) = (9650, 250) ∧
      s.calls.get? 2 = some ⟨sampleTip, .missed⟩ ∧
      (s.step sampleSha256 ⟨⟨9, ""⟩, .advance 2⟩).store = s.store := by
  intro s
  obtain ⟨a, ha, hrequest, hr⟩ :
      ∃ a ∈ s.calls.get? 1, a.request = sampleTip ∧ a.phase.result?.isSome := by
    decide +kernel
  obtain ⟨r, hr⟩ := isSome_iff_exists.1 hr
  have hsecond : s.calls.get? 2 = some ⟨sampleTip, .missed⟩ := by decide +kernel
  refine ⟨by decide +kernel, hsecond, ?_⟩
  refine (tip_idempotent sampleSha256_injective (runs_foldl _ raceEvents)).2.1 1 a r ha hr s .refl
    _ 2 _ hsecond ?_ rfl
  rw [hrequest]
  exact ⟨rfl, rfl⟩

end LmmApi.Bounty
