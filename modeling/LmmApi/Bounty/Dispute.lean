import LmmApi.Bounty.Challenge

/-!
# Disputes

Either party of a challenge may open one dispute on it, while no other is open. An administrator who
is no party denies it, or pays the reward of a contributor's dispute out of the escrow, whatever the
owner's review said.
-/

namespace LmmApi.Bounty

open Guarded Go

/-! ## Opening -/

def openSourceBountyDisputeReasons : List String :=
  ["merged_but_unpaid", "requirements_met_but_rejected", "misleading_requirements",
    "abusive_conduct", "other"]

/-- The checks of `openOpenSourceBountyDispute` before its transaction, with the trimmed texts. -/
def openOpenSourceBountyDisputeCheck (reason statement : String) :
    Except Failure (String × String) := do
  let reason := trimSpace reason
  let statement := trimSpace statement
  require (bountyError .invalidDispute "invalid bounty dispute reason")
    (reason ∈ openSourceBountyDisputeReasons)
  require (bountyError .invalidDispute "dispute statement must contain 20 to 5000 characters")
    (20 ≤ len statement ∧ len statement ≤ 5000)
  return (reason, statement)

/-- The other party of a dispute that `userId` opens. -/
def disputeAgainst (userId : ℕ) (project : Project) (challenge : Challenge) : ℕ :=
  if userId = project.ownerUserId then challenge.participantUserId else project.ownerUserId

variable (env : Env) (adminUserId disputeId : ℕ)

/-- The row of a new dispute, with its snapshot of the evidence. -/
def newDispute (userId challengeId : ℕ) (reason statement : String)
    (project : Project) (challenge : Challenge) : Dispute where
  challengeId := challengeId
  projectId := challenge.projectId
  openedByUserId := userId
  againstUserId := disputeAgainst userId project challenge
  caseKey := (challengeId, userId)
  openKey := some challengeId
  reason := reason
  statement := statement
  projectTitleSnapshot := project.title
  repositoryUrlSnapshot := project.repositoryUrl
  projectRulesSnapshot := project.rules
  projectEscrowQuotaSnapshot := project.escrowQuota
  challengeStatusSnapshot := challenge.status
  issueUrlSnapshot := challenge.issueUrl
  pullRequestUrlSnapshot := challenge.pullRequestUrl
  submissionNoteSnapshot := challenge.submissionNote
  reviewNoteSnapshot := challenge.reviewNote
  rewardQuotaSnapshot := challenge.rewardQuota
  tipQuotaSnapshot := challenge.tipQuota
  ownerRatingScoreSnapshot := challenge.ownerRatingScore
  ownerRatingCommentSnapshot := challenge.ownerRatingComment
  contributorRatingScoreSnapshot := challenge.contributorRatingScore
  contributorRatingCommentSnapshot := challenge.contributorRatingComment
  status := .open_
  createdAt := env.now
  updatedAt := env.now

def openOpenSourceBountyDisputeTx (userId challengeId : ℕ) (reason statement : String)
    (db : Db) : Tx := do
  let challenge ← orFail (db.challenges.get? challengeId)
    (bountyError .challengeNotFound "challenge was not found")
  let project ← orFail (db.projects.get? challenge.projectId) projectNotFound
  require (bountyError .invalidState "closed or unpublished bounty escrow cannot be disputed")
    ¬(project.status = .draft ∨ project.status = .closed)
  require (bountyError .forbidden "only a bounty party can open a dispute")
    (userId = challenge.participantUserId ∨ userId = project.ownerUserId)
  require (bountyError .invalidChallengeState "inactive challenges cannot be disputed")
    ¬(challenge.status = .withdrawn ∨ challenge.status = .cancelled)
  require (bountyError .disputeWindowExpired
      "the seven-day dispute window for this rejected challenge has expired")
    ¬(challenge.status = .rejected ∧ challenge.rejectedAt ≤ env.now - appealWindowSeconds)
  let exists_ := bountyError .disputeExists "an open dispute already exists for this challenge"
  require exists_ ¬hasOpenDispute db challengeId
  require (bountyError .disputeExists
      "this party has already opened the final dispute case for this challenge")
    ¬db.disputes.Any fun _ d => d.challengeId = challengeId ∧ d.openedByUserId = userId
  -- The unique indexes on the case key and the open key.
  require exists_ ¬db.disputes.Any fun _ d =>
    d.caseKey = (challengeId, userId) ∨ d.openKey = some challengeId
  return (.disputed db.disputes.next, { db with
    disputes := db.disputes.insert
      (newDispute env userId challengeId reason statement project challenge) })

/-! ## Resolving -/

/-- The action of a resolution. -/
inductive Action
  | pay | deny
  deriving DecidableEq

/-- The status a resolution leads to. -/
def Action.status : Action → DisputeStatus
  | .pay => .resolvedPaid
  | .deny => .resolvedDenied

/-- The action a trimmed text names. -/
def parseAction (action : String) : Option Action :=
  if action = "pay" then some .pay else if action = "deny" then some .deny else none

/-- The checks of `resolveOpenSourceBountyDispute` before its transaction. -/
def resolveOpenSourceBountyDisputeCheck (action resolution : String) :
    Except Failure (Action × String) := do
  let resolution := trimSpace resolution
  let action ← orFail (parseAction (trimSpace action))
    (bountyError .invalidDisputeResolution "dispute resolution action must be pay or deny")
  require (bountyError .invalidDisputeResolution "resolution must contain 10 to 5000 characters")
    (10 ≤ len resolution ∧ len resolution ≤ 5000)
  return (action, resolution)

/-- The update of a dispute row by its resolution. -/
def Dispute.resolve (adminUserId : ℕ) (status : DisputeStatus) (resolution : String)
    (d : Dispute) : Dispute :=
  { d with status, resolution, resolvedByUserId := adminUserId, resolvedAt := env.now,
           updatedAt := env.now, openKey := none }

/-- The enforced payout of `resolveOpenSourceBountyDispute`. -/
def payDispute (resolution : String) (dispute : Dispute)
    (project : Project) (challenge : Challenge) (db : Db) : Tx := do
  require (bountyError .disputeNotPayable
      ("only a contributor claim against the bounty owner can receive an enforced escrow " ++
        "payment"))
    (dispute.openedByUserId = challenge.participantUserId ∧
      dispute.againstUserId = project.ownerUserId)
  require (bountyError .invalidChallengeState
      "an enforced payout requires a submitted or rejected challenge")
    (challenge.status = .submitted ∨ challenge.status = .rejected)
  require (bountyError .invalidChallengeState
      "a dispute payout requires submitted Issue and pull request evidence")
    (challenge.issueUrl ≠ "" ∧ challenge.pullRequestUrl ≠ "")
  let reward := dispute.rewardQuotaSnapshot
  require (bountyError .escrowInsufficient "bounty escrow is insufficient")
    (0 < reward ∧ challenge.rewardQuota = reward ∧ reward ≤ project.escrowQuota)
  let users ← creditParticipant challenge.participantUserId reward db.users
  let ledgers ← createPayout db.ledgers
    { projectId := dispute.projectId, challengeId := dispute.challengeId,
      userId := project.ownerUserId, counterpartyUserId := challenge.participantUserId,
      kind := .disputeRewardTransfer, quota := reward, note := resolution,
      rewardPayoutKey := some dispute.challengeId, createdAt := env.now }
  return (.resolved disputeId reward,
    { users, ledgers
      projects := db.projects.modify dispute.projectId (Project.payReward env.now reward)
      challenges := db.challenges.modify dispute.challengeId fun c => { c with
        status := .approved
        ownerRatingOverturned := decide (c.status = .rejected ∧ 0 < c.ownerRatingScore)
        paidAt := env.now, updatedAt := env.now }
      disputes := db.disputes.modify disputeId
        (Dispute.resolve env adminUserId .resolvedPaid resolution) })

/-- The denial of `resolveOpenSourceBountyDispute`. -/
def denyDispute (resolution : String) (db : Db) : Tx :=
  return (.resolved disputeId 0, { db with
    disputes := db.disputes.modify disputeId
      (Dispute.resolve env adminUserId .resolvedDenied resolution) })

/-- The part of `resolveOpenSourceBountyDispute` on an open dispute. -/
def settleDispute (action : Action) (resolution : String)
    (dispute : Dispute) (project : Project) (challenge : Challenge) (db : Db) : Tx := do
  require (bountyError .disputeIdentityMismatch
      "dispute parties do not match the bounty challenge and project")
    (challenge.projectId = dispute.projectId ∧ 0 < challenge.participantUserId ∧
      0 < project.ownerUserId ∧ challenge.participantUserId ≠ project.ownerUserId)
  require (bountyError .disputeConflict "a bounty party cannot adjudicate their own dispute")
    (adminUserId ≠ project.ownerUserId ∧ adminUserId ≠ challenge.participantUserId)
  match action with
  | .pay => payDispute env adminUserId disputeId resolution dispute project challenge db
  | .deny => denyDispute env adminUserId disputeId resolution db

/-- `resolveOpenSourceBountyDispute`. A repeated resolution with the same action returns without
doing anything. -/
def resolveOpenSourceBountyDisputeTx (action : Action) (resolution : String) (db : Db) : Tx := do
  let _ ← orFail ((db.users.get? adminUserId).filter fun u => u.deleted = false ∧
      u.status = userStatusEnabled ∧ roleAdminUser ≤ u.role)
    (bountyError .forbidden "administrator access is required")
  let dispute ← orFail (db.disputes.get? disputeId)
    (bountyError .disputeNotFound "bounty dispute was not found")
  let project ← orFail (db.projects.get? dispute.projectId) .recordNotFound
  let challenge ← orFail (db.challenges.get? dispute.challengeId) .recordNotFound
  if dispute.status = .open_ then
    settleDispute env adminUserId disputeId action resolution dispute project challenge db
  else do
    require (bountyError .disputeResolved
        "bounty dispute is already resolved with a different action")
      (dispute.status = action.status)
    return (.alreadyResolved disputeId, db)

end LmmApi.Bounty
