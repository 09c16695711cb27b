import LmmApi.Bounty.Transition
import LmmApi.Lib.GoJson

/-!
# Idempotent tips

`TipOpenSourceBountyChallengeIdempotent`: a tip with an idempotency key. Its transaction looks for
the record of the key, reserves the key by inserting a record that a unique index on user, operation
and key hash guards, moves the quota, and completes the record with the encoded result. A request
that finds a record answers from it; one that loses the race for the index is rolled back and reads
the winner's record afterwards.

`Server` runs any number of such requests. The lookup of a request and the rest of its transaction
are separate steps, between which other requests and other bounty operations may commit; its
insertion and everything after it is one atomic step, guarded by the index. A request may also stop
at any point, or have one of its statements fail. SHA-256 is the parameter `sha256`, the hexadecimal
text of the hash of a text.
-/

namespace LmmApi.Bounty

open Guarded Go

/-! ## The encoded result -/

def ChallengeStatus.text : ChallengeStatus → String
  | .accepted => "accepted"
  | .submitted => "submitted"
  | .approved => "approved"
  | .rejected => "rejected"
  | .withdrawn => "withdrawn"
  | .cancelled => "cancelled"

def ChallengeStatus.ofText : String → Option ChallengeStatus
  | "accepted" => some .accepted
  | "submitted" => some .submitted
  | "approved" => some .approved
  | "rejected" => some .rejected
  | "withdrawn" => some .withdrawn
  | "cancelled" => some .cancelled
  | _ => none

theorem ChallengeStatus.ofText_text (s : ChallengeStatus) : ofText s.text = some s := by
  cases s <;> rfl

/-- The JSON fields of a challenge. -/
def Challenge.toFields (id : ℕ) (c : Challenge) : List (String × Json) :=
  [("id", .int id), ("project_id", .int c.projectId),
    ("participant_user_id", .int c.participantUserId), ("github_handle", .str c.githubHandle),
    ("status", .str c.status.text), ("issue_url", .str c.issueUrl),
    ("pull_request_url", .str c.pullRequestUrl), ("submission_note", .str c.submissionNote),
    ("review_note", .str c.reviewNote), ("reward_quota", .int c.rewardQuota),
    ("tip_quota", .int c.tipQuota), ("owner_rating_score", .int c.ownerRatingScore),
    ("owner_rating_comment", .str c.ownerRatingComment), ("owner_rated_at", .int c.ownerRatedAt),
    ("contributor_rating_score", .int c.contributorRatingScore),
    ("contributor_rating_comment", .str c.contributorRatingComment),
    ("contributor_rated_at", .int c.contributorRatedAt),
    ("owner_rating_overturned", .bool c.ownerRatingOverturned), ("accepted_at", .int c.acceptedAt),
    ("submitted_at", .int c.submittedAt), ("reviewed_at", .int c.reviewedAt),
    ("rejected_at", .int c.rejectedAt), ("paid_at", .int c.paidAt),
    ("created_at", .int c.createdAt),
    ("updated_at", .int c.updatedAt)]

/-- The challenge that JSON fields hold. -/
def Challenge.ofFields (fields : List (String × Json)) : Option Challenge := do
  return {
    projectId := ← Json.natField fields "project_id"
    participantUserId := ← Json.natField fields "participant_user_id"
    githubHandle := ← Json.strField fields "github_handle"
    status := ← ChallengeStatus.ofText (← Json.strField fields "status")
    issueUrl := ← Json.strField fields "issue_url"
    pullRequestUrl := ← Json.strField fields "pull_request_url"
    submissionNote := ← Json.strField fields "submission_note"
    reviewNote := ← Json.strField fields "review_note"
    rewardQuota := ← Json.intField fields "reward_quota"
    tipQuota := ← Json.intField fields "tip_quota"
    ownerRatingScore := ← Json.intField fields "owner_rating_score"
    ownerRatingComment := ← Json.strField fields "owner_rating_comment"
    ownerRatedAt := ← Json.intField fields "owner_rated_at"
    contributorRatingScore := ← Json.intField fields "contributor_rating_score"
    contributorRatingComment := ← Json.strField fields "contributor_rating_comment"
    contributorRatedAt := ← Json.intField fields "contributor_rated_at"
    ownerRatingOverturned := ← Json.boolField fields "owner_rating_overturned"
    acceptedAt := ← Json.intField fields "accepted_at"
    submittedAt := ← Json.intField fields "submitted_at"
    reviewedAt := ← Json.intField fields "reviewed_at"
    rejectedAt := ← Json.intField fields "rejected_at"
    paidAt := ← Json.intField fields "paid_at"
    createdAt := ← Json.intField fields "created_at"
    updatedAt := ← Json.intField fields "updated_at" }

def TipResult.toJson (r : TipResult) : Json :=
  .obj [("challenge", .obj (r.challenge.toFields r.challengeId)),
    ("transferred_quota", .int r.transferredQuota), ("remaining_quota", .int r.remainingQuota)]

def TipResult.ofJson : Json → Option TipResult
  | .obj fields => do
    let challenge ← Json.objField fields "challenge"
    return {
      challengeId := ← Json.natField challenge "id"
      challenge := ← Challenge.ofFields challenge
      transferredQuota := ← Json.intField fields "transferred_quota"
      remainingQuota := ← Json.intField fields "remaining_quota" }
  | _ => none

theorem Challenge.ofFields_toFields (id : ℕ) (c : Challenge) :
    ofFields (c.toFields id) = some c := by
  simp [ofFields, toFields, Json.natField, Json.intField, Json.strField, Json.boolField,
    List.lookup_cons, ChallengeStatus.ofText_text]

theorem TipResult.ofJson_toJson (r : TipResult) : ofJson r.toJson = some r := by
  have hid : Json.natField (r.challenge.toFields r.challengeId) "id" = some r.challengeId := by
    simp [Challenge.toFields, Json.natField, Json.intField]
  simp [ofJson, toJson, Json.objField, Json.intField, List.lookup_cons, hid,
    Challenge.ofFields_toFields]

/-! ## Requests and records -/

/-- The arguments of `TipOpenSourceBountyChallengeIdempotent`. -/
structure TipRequest where
  ownerUserId : ℕ
  challengeId : ℕ
  quota : ℤ
  note : String
  idempotencyKey : String
  deriving DecidableEq

/-- What a request asks for, besides its user and key. -/
def TipRequest.payload (r : TipRequest) : ℕ × ℤ × String :=
  (r.challengeId, r.quota, trimSpace r.note)

/-- The encoded payload. -/
def TipRequest.payloadJson (r : TipRequest) : Json :=
  .obj [("challenge_id", .int r.challengeId), ("quota", .int r.quota),
    ("note", .str (trimSpace r.note))]

/-- `OpenSourceBountyRESTOperation`. -/
structure RestOperation where
  userId : ℕ
  operation : String
  idempotencyKeyHash : String
  payloadHash : String
  resultJson : String := ""
  createdAt : ℤ
  completedAt : ℤ := 0
  deriving DecidableEq

/-- `openSourceBountyRESTOperationSpec`. -/
structure RestSpec where
  userId : ℕ
  operation : String
  idempotencyKeyHash : String
  payloadHash : String
  deriving DecidableEq

/-- The record has the user, operation and key hash of the specification: the key of the unique
index. -/
def RestSpec.Names (spec : RestSpec) (o : RestOperation) : Prop :=
  o.userId = spec.userId ∧ o.operation = spec.operation ∧
    o.idempotencyKeyHash = spec.idempotencyKeyHash
  deriving Decidable

def openSourceBountyRESTTipOperation : String := "tip"

def openSourceBountyIdempotencyKeyPattern (key : String) : Bool :=
  match key.toList with
  | [] => false
  | c :: rest =>
    isAlnum c && rest.all (fun c => isAlnum c || ['.', '_', ':', '-'].contains c) &&
      (decide (7 ≤ rest.length) && decide (rest.length ≤ 127))

def validateOpenSourceBountyIdempotencyKey (key : String) : Except Failure Unit :=
  require (bountyError .invalidIdempotencyKey
      "Idempotency-Key must contain 8 to 128 supported characters")
    (openSourceBountyIdempotencyKeyPattern key)

section

variable (sha256 : String → String)

def hashOpenSourceBountyIdempotencyKey (key : String) : String := sha256 key

def openSourceBountyMCPPayloadHash (value : Json) : String := sha256 value.encode

/-- The specification of a request. -/
def TipRequest.spec (r : TipRequest) : RestSpec where
  userId := r.ownerUserId
  operation := openSourceBountyRESTTipOperation
  idempotencyKeyHash := hashOpenSourceBountyIdempotencyKey sha256 r.idempotencyKey
  payloadHash := openSourceBountyMCPPayloadHash sha256 r.payloadJson

def newOpenSourceBountyRESTTipOperationSpec (r : TipRequest) : Except Failure RestSpec := do
  validateOpenSourceBountyIdempotencyKey r.idempotencyKey
  return r.spec sha256

end

def decodeOpenSourceBountyRESTTipResult (operation : RestOperation) (spec : RestSpec) :
    Except Failure TipResult := do
  require (bountyError .idempotencyMismatch
      "Idempotency-Key was already used for a different bounty tip")
    (operation.payloadHash = spec.payloadHash)
  require (bountyError .idempotencyInProgress
      "the bounty tip is still being committed; retry with the same Idempotency-Key")
    ¬(operation.completedAt ≤ 0 ∨ operation.resultJson = "")
  orFail ((Json.decode operation.resultJson).bind TipResult.ofJson) .malformedJson

/-! ## The transaction -/

/-- The bounty store with the records of the idempotency keys. -/
structure RestStore where
  db : Db
  operations : Table RestOperation

/-- The record of the key of a specification. -/
def RestStore.find? (store : RestStore) (spec : RestSpec) : Option (ℕ × RestOperation) :=
  store.operations.first? fun _ o => spec.Names o

def completeOpenSourceBountyRESTOperationTx (env : Env) (operationId : ℕ) (result : TipResult)
    (operations : Table RestOperation) : Except Failure (Table RestOperation) := do
  require (.database "failed to commit open-source bounty REST operation result")
    (operations.count (fun i o => i = operationId ∧ o.completedAt = 0) = 1)
  return operations.modifyWhere (fun i o => i = operationId ∧ o.completedAt = 0) fun o => { o with
    resultJson := result.toJson.encode, completedAt := env.now }

/-- The transaction of `tipOpenSourceBountyChallenge` from the insertion of the reservation on, when
the unique index admits it. -/
def reservedTipTx (env : Env) (r : TipRequest) (spec : RestSpec) (store : RestStore) :
    Except Failure (TipResult × RestStore) := do
  let operations := store.operations.insert
    { userId := spec.userId, operation := spec.operation,
      idempotencyKeyHash := spec.idempotencyKeyHash, payloadHash := spec.payloadHash,
      createdAt := env.now }
  let (result, db) ← tipOpenSourceBountyChallengeTx env r.ownerUserId r.challengeId r.quota
    (trimSpace r.note) store.db
  let operations ←
    completeOpenSourceBountyRESTOperationTx env store.operations.next result operations
  return (result, ⟨db, operations⟩)

/-! ## Requests in progress -/

/-- Where a request is. -/
inductive Phase
  /-- In its transaction, before the lookup. -/
  | looking
  /-- In its transaction, after a lookup that found no record. -/
  | missed
  /-- Rolled back after `errOpenSourceBountyRESTOperationRace`. -/
  | raced
  /-- Its own transaction committed. -/
  | committed (result : TipResult)
  /-- It answered from a record. -/
  | replayed (result : TipResult)
  | failed (failure : Failure)
  deriving DecidableEq

/-- The result of a request that succeeded. -/
def Phase.result? : Phase → Option TipResult
  | .committed result => some result
  | .replayed result => some result
  | _ => none

/-- The request has returned. -/
def Phase.finished : Phase → Bool
  | .looking | .missed | .raced => false
  | _ => true

/-- A request and where it is. -/
structure Call where
  request : TipRequest
  phase : Phase
  deriving DecidableEq

/-- The answer from a record. -/
def answer (spec : RestSpec) (o : RestOperation) : Phase :=
  match decodeOpenSourceBountyRESTTipResult o spec with
  | .ok result => .replayed result
  | .error failure => .failed failure

section

variable (sha256 : String → String)

/-- The checks before the transaction. -/
def TipRequest.begin_ (r : TipRequest) : Phase :=
  match (do
    let _ ← newOpenSourceBountyRESTTipOperationSpec sha256 r
    tipOpenSourceBountyChallengeCheck r.quota r.note) with
  | .ok _ => .looking
  | .error failure => .failed failure

/-- The next step of a request. -/
def Call.advance (env : Env) (call : Call) (store : RestStore) : Phase × RestStore :=
  let spec := call.request.spec sha256
  match call.phase, store.find? spec with
  -- `reserveOpenSourceBountyRESTOperationTx` looks the key up,
  | .looking, some (_, o) => (answer spec o, store)
  | .looking, none => (.missed, store)
  -- and inserts the reservation, which the unique index may refuse.
  | .missed, some _ => (.raced, store)
  | .missed, none =>
    match reservedTipTx env call.request spec store with
    | .ok (result, store') => (.committed result, store')
    | .error failure => (.failed failure, store)
  -- `getOpenSourceBountyRESTTipResult`.
  | .raced, some (_, o) => (answer spec o, store)
  | .raced, none => (.failed .recordNotFound, store)
  | phase, _ => (phase, store)

/-! ## The server -/

/-- The store and the requests made so far. -/
structure Server where
  store : RestStore
  calls : Table Call

/-- What happens next. -/
inductive RestAction
  /-- A request arrives. -/
  | call (request : TipRequest)
  /-- A request takes its next step. -/
  | advance (call : ℕ)
  /-- A statement of a request fails: its transaction is rolled back. -/
  | abort (call : ℕ) (failure : Failure)
  /-- Another bounty operation commits or fails. -/
  | other (op : Op)

structure RestEvent where
  env : Env
  action : RestAction

/-- The request that an event is a step of. -/
def RestEvent.target (e : RestEvent) : Option ℕ :=
  match e.action with
  | .advance i => some i
  | .abort i _ => some i
  | _ => none

namespace Server

def start (db : Db) : Server := ⟨⟨db, .empty⟩, .empty⟩

/-- Puts a request into a phase. -/
def setPhase (s : Server) (i : ℕ) (phase : Phase) : Server :=
  { s with calls := s.calls.modify i fun call => { call with phase } }

/-- One atomic step of the server. -/
def step (s : Server) (e : RestEvent) : Server :=
  match e.action with
  | .call request => { s with calls := s.calls.insert ⟨request, request.begin_ sha256⟩ }
  | .advance i =>
    match s.calls.get? i with
    | none => s
    | some call =>
      if call.phase.finished then s
      else
        let (phase, store) := call.advance sha256 e.env s.store
        { s.setPhase i phase with store }
  | .abort i failure =>
    match s.calls.get? i with
    | none => s
    | some call => if call.phase.finished then s else s.setPhase i (.failed failure)
  | .other op => { s with store := { s.store with db := Bounty.step ⟨e.env, op⟩ s.store.db } }

/-- A run of the server: any interleaving. -/
abbrev Runs : Server → Server → Prop := Relation.ReflTransGen fun s s' => ∃ e, s' = s.step sha256 e

end Server

end

end LmmApi.Bounty
