import LmmApi.Bounty.Transition
import LmmApi.Lib.GoJson

/-!
# MCP confirmations

A sensitive bounty operation that is called as an MCP tool needs a confirmation: a row that binds a
random state to the user, the tool and the hash of the arguments for ten minutes. The operation's
transaction validates the confirmation first; when its mutation is done, the same transaction writes
an operation row under the state and consumes the confirmation. A call whose transaction fails
because of its confirmation consumes it in a second transaction.

The tables are keyed by the state, a text. `McpState` adds what the tables forget: every
confirmation as it was created, since old ones are deleted, and the list of the mutations committed
so far.
-/

namespace LmmApi.Bounty

open Guarded Go

/-! ## Tables -/

/-- `OpenSourceBountyMCPConfirmation`. -/
structure Confirmation where
  userId : ℕ
  toolName : String
  payloadHash : String
  expiresAt : ℤ
  consumedAt : ℤ := 0
  createdAt : ℤ

/-- `OpenSourceBountyMCPOperation`. -/
structure McpOperation where
  userId : ℕ
  toolName : String
  payloadHash : String
  resultJson : String
  createdAt : ℤ
  deriving DecidableEq

/-- `OpenSourceBountyMCPConfirmedOperation`; its fee recipient is the argument of `Op.publish`. -/
structure ConfirmedOperation where
  state : String
  toolName : String
  payloadHash : String
  deriving DecidableEq

/-- The bounty store with the two MCP tables. -/
structure McpStore where
  db : Db
  confirmations : String → Option Confirmation
  operations : String → Option McpOperation

/-- Writes a confirmation. -/
def McpStore.putConfirmation (s : McpStore) (state : String) (c : Confirmation) : McpStore :=
  { s with confirmations := Function.update s.confirmations state (some c) }

def openSourceBountyMCPConfirmationTTL : ℤ := 10 * 60

/-! ## Confirmations -/

variable (now : ℤ) (userId : ℕ) (operation : ConfirmedOperation)

variable (e : McpEvent) (s : McpStore)

/-- The clean-up that precedes every new confirmation: expired ones and those consumed a day ago. -/
def McpStore.sweep : McpStore :=
  { s with confirmations := fun id => (s.confirmations id).filter fun c =>
      ¬(c.expiresAt < now ∨ 0 < c.consumedAt ∧ c.consumedAt < now - 86400) }

/-- A new confirmation. -/
def newConfirmation (toolName payloadHash : String) : Confirmation where
  userId := userId
  toolName := toolName
  payloadHash := payloadHash
  expiresAt := now + openSourceBountyMCPConfirmationTTL
  createdAt := now

/-- `CreateOpenSourceBountyMCPConfirmation`, with the random state it draws. -/
def createOpenSourceBountyMCPConfirmation (state : String) (userId : ℕ)
    (toolName payloadHash : String) (s : McpStore) : McpStore :=
  let s := s.sweep now
  if (s.confirmations state).isSome then s
  else s.putConfirmation state (newConfirmation now userId toolName payloadHash)

/-- The confirmation of a user and tool. -/
def McpStore.findConfirmation (userId : ℕ) (operation : ConfirmedOperation) : Option Confirmation :=
  (s.confirmations operation.state).filter fun c =>
    c.userId = userId ∧ c.toolName = operation.toolName

def confirmationInvalid : Failure := bountyError .mcpConfirmationInvalid
  "confirmation is missing, expired, already used, or does not match this action"

def consumeOpenSourceBountyMCPConfirmation : Except Failure Unit × McpStore :=
  match s.findConfirmation userId operation with
  | none => (.error confirmationInvalid, s)
  | some c =>
    if c.consumedAt ≠ 0 ∨ c.expiresAt < now then (.error confirmationInvalid, s)
    else
      (require confirmationInvalid (c.payloadHash = operation.payloadHash),
        s.putConfirmation operation.state { c with consumedAt := now })

def validateOpenSourceBountyMCPConfirmationTx : Except Failure Unit := do
  let c ← orFail (s.findConfirmation userId operation) confirmationInvalid
  require confirmationInvalid
    ¬(c.consumedAt ≠ 0 ∨ c.expiresAt < now ∨ c.payloadHash ≠ operation.payloadHash)

def completeOpenSourceBountyMCPOperationTx
    (result : Json) (s : McpStore) : Except Failure McpStore := do
  require .uniqueViolation ((s.operations operation.state).isNone)
  let row : McpOperation :=
    { userId, toolName := operation.toolName, payloadHash := operation.payloadHash,
      resultJson := result.encode, createdAt := now }
  let c ← orFail ((s.findConfirmation userId operation).filter fun c =>
      c.payloadHash = operation.payloadHash ∧ c.consumedAt = 0)
    (bountyError .mcpConfirmationInvalid "confirmation could not be committed with this operation")
  let operations := Function.update s.operations operation.state (some row)
  return { s.putConfirmation operation.state { c with consumedAt := now } with operations }

/-! ## Confirmed operations -/

/-- The user of an operation that can be called with a confirmation. -/
def Op.confirmedUser : Op → Option ℕ
  | .deleteDraft user _ => some user
  | .publish (some _) user _ => some user
  | .close user _ => some user
  | .withdraw user _ => some user
  | .cancel user _ => some user
  | .review user _ _ => some user
  | .rate user _ _ _ => some user
  | .tip user _ _ _ => some user
  | .openDispute user _ _ _ => some user
  | .resolveDispute user _ _ _ => some user
  | _ => none

/-- The result that is recorded for an operation. -/
def Outcome.mcpResult : Outcome → Json
  | .project id => .obj [("project_id", .int id)]
  | .challenge id => .obj [("challenge_id", .int id)]
  | .published id charged => .obj [("charged_quota", .int charged), ("project_id", .int id)]
  | .closed id refunded => .obj [("project_id", .int id), ("refunded_quota", .int refunded)]
  | .reviewed id quota => .obj [("challenge_id", .int id), ("transferred_quota", .int quota)]
  | .tipped r => .obj [("challenge_id", .int r.challengeId),
      ("transferred_quota", .int r.transferredQuota)]
  | .disputed id => .obj [("dispute_id", .int id)]
  | .resolved id quota => .obj [("dispute_id", .int id), ("transferred_quota", .int quota)]
  | .alreadyResolved id => .obj [("dispute_id", .int id)]

/-- The operation did something: only the repeated resolution of a dispute does not. -/
def Outcome.isMutation : Outcome → Bool
  | .alreadyResolved _ => false
  | _ => true

/-- A transaction under a confirmation. The repeated resolution of a dispute returns before the
completion. -/
def confirmedTx (tx : Db → Tx) (s : McpStore) : Except Failure (Outcome × McpStore) := do
  validateOpenSourceBountyMCPConfirmationTx now userId operation s
  let (outcome, db) ← tx s.db
  if outcome.isMutation then
    let s ← completeOpenSourceBountyMCPOperationTx now userId operation outcome.mcpResult
      { s with db }
    return (outcome, s)
  else return (outcome, { s with db })

/-- A call of an operation with a confirmation: the checks of its arguments, its transaction, and
the consumption of a confirmation that made it fail. -/
def confirmedCall (env : Env) (userId : ℕ) (operation : ConfirmedOperation) (op : Op)
    (s : McpStore) : Except Failure Outcome × McpStore :=
  match op.prepare env with
  | .error failure => (.error failure, s)
  | .ok tx =>
    match confirmedTx env.now userId operation tx s with
    | .ok (outcome, s') => (.ok outcome, s')
    | .error failure =>
      (.error failure, if openSourceBountyErrorCode failure = some .mcpConfirmationInvalid then
          (consumeOpenSourceBountyMCPConfirmation env.now userId operation s).2
        else s)

/-! ## Runs -/

/-- A committed mutation. -/
structure Mutation where
  state : String
  userId : ℕ
  toolName : String
  payloadHash : String
  time : ℤ
  op : Op
  deriving DecidableEq

structure McpState where
  store : McpStore
  /-- Every confirmation as it was created. -/
  issued : String → Option Confirmation
  /-- The mutations that were committed under a confirmation. -/
  log : List Mutation

inductive McpAction
  | create (state : String) (userId : ℕ) (toolName payloadHash : String)
  | call (operation : ConfirmedOperation) (op : Op)
  /-- A tool outside the bounties consumes a confirmation. -/
  | consume (userId : ℕ) (operation : ConfirmedOperation)
  /-- A bounty operation without a confirmation. -/
  | plain (op : Op)

structure McpEvent where
  env : Env
  action : McpAction

def McpEvent.time : ℤ := e.env.now

/-- The history after a call. -/
def McpState.record (s : McpState) (e : McpEvent) (userId : ℕ) (operation : ConfirmedOperation)
    (op : Op) (r : Except Failure Outcome × McpStore) : McpState where
  store := r.2
  issued := s.issued
  log := match r.1 with
    | .ok outcome =>
      if outcome.isMutation then
        s.log ++ [⟨operation.state, userId, operation.toolName, operation.payloadHash, e.time, op⟩]
      else s.log
    | .error _ => s.log

/-- One call. -/
def mcpStep (s : McpState) : McpState :=
  match e.action with
  | .create state userId toolName payloadHash =>
    { s with
      store :=
        createOpenSourceBountyMCPConfirmation e.time state userId toolName payloadHash s.store
      issued := Function.update s.issued state
        (some (newConfirmation e.time userId toolName payloadHash)) }
  | .call operation op =>
    match op.confirmedUser with
    | none => s
    | some userId =>
      s.record e userId operation op (confirmedCall e.env userId operation op s.store)
  | .consume userId operation =>
    { s with store := (consumeOpenSourceBountyMCPConfirmation e.time userId operation s.store).2 }
  | .plain op => { s with store := { s.store with db := step ⟨e.env, op⟩ s.store.db } }

/-- The random states never repeat. -/
def issuesFresh (s : McpState) : Prop :=
  ∀ state userId toolName payloadHash, e.action = .create state userId toolName payloadHash →
    s.issued state = none

/-- A run of calls whose confirmations are fresh. -/
abbrev McpRun : Timed McpState → Timed McpState → Prop :=
  Timed.Reaches mcpStep McpEvent.time issuesFresh

/-- No confirmations, at time `t`. -/
def mcpStart (t : ℤ) (db : Db) : Timed McpState :=
  ⟨t, ⟨⟨db, fun _ => none, fun _ => none⟩, fun _ => none, []⟩⟩

end LmmApi.Bounty
