import LmmApi.Bounty.Lifecycle

/-!
# Challenges

A contributor's attempt at a bounty: it is accepted while a reward slot is free, submitted with
GitHub evidence, and then approved and paid, or rejected; until it is reviewed it can be withdrawn
by the contributor, and until it is submitted cancelled by the owner.

Slots are not stored: `AcceptOpenSourceBounty` counts the challenges that occupy one
(`occupiesSlot`) when a new attempt arrives.

The source first reads a challenge for its project, locks the project and reads the challenge again.
In one atomic transaction the two reads agree, so here there is one, and the comparison of the two
(`challenge.ProjectId != project.Id`) is left out.
-/

namespace LmmApi.Bounty

open Guarded Go

/-! ## Accepting -/

/-- A challenge that is under way or paid. -/
def ChallengeStatus.Standing (s : ChallengeStatus) : Prop :=
  s = .accepted ∨ s = .submitted ∨ s = .approved
  deriving Decidable

/-- The rejected attempts that keep their participant from a new one. Only a denied dispute ends
the wait early. -/
def retryPending (db : Db) (now : ℤ) (challengeId : ℕ) (c : Challenge) : Prop :=
  c.status = .rejected ∧ ((now - appealWindowSeconds < c.rejectedAt ∧
        ¬db.disputes.Any fun _ d => d.challengeId = challengeId ∧ d.status = .resolvedDenied) ∨
      hasOpenDispute db challengeId)
  deriving Decidable

/-- The challenges that occupy a reward slot. -/
def occupiesSlot (db : Db) (now : ℤ) (challengeId : ℕ) (c : Challenge) : Prop :=
  c.status.Standing ∨ appealableRejection db now challengeId c ∨ hasOpenDispute db challengeId
  deriving Decidable

/-- The reward of a new challenge: the net reward, or the gross one of a project without it. -/
def challengeReward (project : Project) : ℤ :=
  if project.netRewardQuota ≤ 0 then project.rewardQuota else project.netRewardQuota

variable (env : Env) (ownerUserId challengeId : ℕ)

def acceptOpenSourceBounty (participantUserId projectId : ℕ) (rawGithubHandle : String)
    (db : Db) : Tx := do
  let githubHandle ← normalizeGithubHandle rawGithubHandle
  let project ← orFail (db.projects.get? projectId) projectNotFound
  require (bountyError .notAccepting "bounty is not accepting new challenges")
    (project.status = .published)
  require (bountyError .ownerCannotAccept "bounty owner cannot accept their own challenge")
    (project.ownerUserId ≠ participantUserId)
  require (bountyError .alreadyAccepted "this bounty already has an active or completed attempt")
    ¬db.challenges.Any fun _ c => c.projectId = projectId ∧
      c.participantUserId = participantUserId ∧ c.status.Standing
  require (bountyError .retryPending
      ("wait until the rejected attempt's dispute is resolved or its seven-day appeal window " ++
        "ends"))
    ¬db.challenges.Any fun i c => c.projectId = projectId ∧
      c.participantUserId = participantUserId ∧ retryPending db env.now i c
  require (bountyError .full "all reward slots are currently occupied")
    (db.challenges.count (fun i c => c.projectId = projectId ∧ occupiesSlot db env.now i c) <
      project.rewardSlots)
  let challenge : Challenge :=
    { projectId, participantUserId, githubHandle, status := .accepted,
      rewardQuota := challengeReward project, acceptedAt := env.now, createdAt := env.now,
      updatedAt := env.now }
  return (.challenge db.challenges.next, { db with challenges := db.challenges.insert challenge })

/-! ## Submitting -/

/-- `SubmitOpenSourceBountyChallenge`. The duplicate check compares the normalized links as texts,
and only with challenges that are submitted or approved now. -/
def submitOpenSourceBountyChallenge (participantUserId projectId : ℕ)
    (issueUrl pullRequestUrl submissionNote : String) (db : Db) : Tx := do
  let submissionNote := trimSpace submissionNote
  require (bountyError .invalidSubmission "completion note must contain at most 2000 characters")
    (len submissionNote ≤ 2000)
  let project ← orFail (db.projects.get? projectId) projectNotFound
  let (challengeId, _) ← orFail (db.challenges.last? fun _ c => c.projectId = projectId ∧
      c.participantUserId = participantUserId ∧ c.status = .accepted)
    (bountyError .challengeNotFound "accepted challenge was not found")
  let issueUrl ← normalizeGithubEvidence issueUrl project.repositoryUrl "issues"
  let pullRequestUrl ← normalizeGithubEvidence pullRequestUrl project.repositoryUrl "pull"
  require (bountyError .evidenceRequired "provide at least one GitHub Issue or pull request URL")
    ¬(issueUrl = "" ∧ pullRequestUrl = "")
  require (bountyError .duplicatePullRequest "this pull request has already been submitted")
    (pullRequestUrl = "" ∨ ¬db.challenges.Any fun i c => c.projectId = projectId ∧
      i ≠ challengeId ∧ c.pullRequestUrl = pullRequestUrl ∧
      (c.status = .submitted ∨ c.status = .approved))
  return (.challenge challengeId, { db with
    challenges := db.challenges.modify challengeId fun c => { c with
      issueUrl, pullRequestUrl, submissionNote, status := .submitted, submittedAt := env.now,
      updatedAt := env.now } })

/-! ## Withdrawing and cancelling -/

def withdrawOpenSourceBountyChallengeTx (participantUserId challengeId : ℕ) (db : Db) : Tx := do
  let challenge ← orFail
    ((db.challenges.get? challengeId).filter fun c => c.participantUserId = participantUserId)
    (bountyError .challengeNotFound "challenge was not found")
  require (bountyError .invalidChallengeState "challenge cannot be withdrawn")
    (challenge.status = .accepted ∨ challenge.status = .submitted)
  require (bountyError .openDisputes "a challenge with an open dispute cannot be withdrawn")
    ¬hasOpenDispute db challengeId
  return (.challenge challengeId, { db with
    challenges := db.challenges.modify challengeId fun c => { c with
      status := .withdrawn, updatedAt := env.now } })

def cancelOpenSourceBountyChallengeTx (db : Db) : Tx := do
  let challenge ← orFail (db.challenges.get? challengeId)
    (bountyError .challengeNotFound "challenge was not found")
  let project ← ownedProject db ownerUserId challenge.projectId
    (bountyError .forbidden "only the bounty owner can cancel this challenge")
  require (bountyError .invalidState "only a published or paused bounty can cancel a challenge")
    project.status.Active
  require (bountyError .invalidChallengeState "only an unsubmitted challenge can be cancelled")
    (challenge.status = .accepted)
  require (bountyError .openDisputes "a challenge with an open dispute cannot be cancelled")
    ¬hasOpenDispute db challengeId
  return (.challenge challengeId, { db with
    challenges := db.challenges.modify challengeId fun c => { c with
      status := .cancelled, updatedAt := env.now } })

/-! ## Reviewing -/

def validateOpenSourceBountyRating (score : ℤ) (comment : String) : Except Failure String := do
  let comment := trimSpace comment
  require (bountyError .invalidRating "rating score must be between 1 and 5")
    (1 ≤ score ∧ score ≤ 5)
  require (bountyError .invalidRating "rating comment must contain 2 to 1000 characters")
    (2 ≤ len comment ∧ len comment ≤ 1000)
  return comment

/-- The project after a reward is paid from its escrow: the last reward completes it. -/
def Project.payReward (now reward : ℤ) (p : Project) : Project :=
  { p with
    escrowQuota := p.escrowQuota - reward
    status := if p.escrowQuota - reward = 0 then .completed else p.status
    closedAt := if p.escrowQuota - reward = 0 then now else p.closedAt
    updatedAt := now }

/-- Create the ledger row of a payout, under the unique index on the payout key. -/
def createPayout (ledgers : Table Ledger) (entry : Ledger) : Except Failure (Table Ledger) := do
  require .uniqueViolation ¬ledgers.Any fun _ l =>
    l.rewardPayoutKey.isSome ∧ l.rewardPayoutKey = entry.rewardPayoutKey
  return ledgers.insert entry

/-- The credit of a payout to the participant. -/
def creditParticipant (participantUserId : ℕ) (quota : ℤ) (users : Table User) :
    Except Failure (Table User) :=
  updateWalletQuotaByDelta users participantUserId (fun u => u.deleted = false) quota
    (.walletQuota quota) (bountyError .participantNotFound "challenge participant was not found")

/-- The arguments of a review. -/
structure Review where
  approve : Bool
  reviewNote : String
  ratingScore : ℤ
  ratingComment : String
  deriving DecidableEq

/-- The checks of `reviewOpenSourceBountyChallenge` before its transaction, with the trimmed texts.
-/
def reviewOpenSourceBountyChallengeCheck (review : Review) : Except Failure Review := do
  let reviewNote := trimSpace review.reviewNote
  require (bountyError .invalidReview "review note is too long") (len reviewNote ≤ 2000)
  let ratingComment ← validateOpenSourceBountyRating review.ratingScore review.ratingComment
  return { review with reviewNote, ratingComment }

/-- The rejecting branch of `reviewOpenSourceBountyChallenge`. -/
def rejectChallenge (challengeId : ℕ) (review : Review) (db : Db) : Tx :=
  return (.reviewed challengeId 0, { db with
    challenges := db.challenges.modify challengeId fun c => { c with
      status := .rejected, reviewNote := review.reviewNote, ownerRatingScore := review.ratingScore,
      ownerRatingComment := review.ratingComment, ownerRatedAt := env.now, reviewedAt := env.now,
      rejectedAt := env.now, updatedAt := env.now } })

/-- The approving branch of `reviewOpenSourceBountyChallenge`: the payout also settles the open
disputes on the challenge. -/
def approveChallenge (challenge : Challenge)
    (project : Project) (review : Review) (db : Db) : Tx := do
  require (bountyError .invalidState "bounty is not in a payable state") project.status.Active
  require (bountyError .escrowInsufficient "bounty escrow is insufficient")
    (0 < challenge.rewardQuota ∧ challenge.rewardQuota ≤ project.escrowQuota)
  let users ← creditParticipant challenge.participantUserId challenge.rewardQuota db.users
  let ledgers ← createPayout db.ledgers
    { projectId := challenge.projectId, challengeId, userId := ownerUserId,
      counterpartyUserId := challenge.participantUserId, kind := .rewardTransfer,
      quota := challenge.rewardQuota, rewardPayoutKey := some challengeId, createdAt := env.now }
  return (.reviewed challengeId challenge.rewardQuota,
    { users, ledgers
      projects := db.projects.modify challenge.projectId
        (Project.payReward env.now challenge.rewardQuota)
      challenges := db.challenges.modify challengeId fun c => { c with
        status := .approved, reviewNote := review.reviewNote,
        ownerRatingScore := review.ratingScore, ownerRatingComment := review.ratingComment,
        ownerRatedAt := env.now, reviewedAt := env.now, paidAt := env.now, updatedAt := env.now }
      disputes := db.disputes.modifyWhere
        (fun _ d => d.challengeId = challengeId ∧ d.status = .open_) fun d => { d with
          status := .resolvedPaid
          resolution := "The publisher approved and paid the reward after the dispute was opened."
          resolvedByUserId := ownerUserId, resolvedAt := env.now, updatedAt := env.now,
          openKey := none } })

def reviewOpenSourceBountyChallengeTx (review : Review) (db : Db) : Tx := do
  let challenge ← orFail (db.challenges.get? challengeId)
    (bountyError .challengeNotFound "challenge submission was not found")
  let project ← ownedProject db ownerUserId challenge.projectId
    (bountyError .forbidden "only the bounty owner can review this submission")
  require (bountyError .invalidChallengeState "only a submitted challenge can be reviewed")
    (challenge.status = .submitted)
  if review.approve then approveChallenge env ownerUserId challengeId challenge project review db
  else rejectChallenge env challengeId review db

/-! ## Rating and tipping -/

/-- `rateOpenSourceBountyOwner`, whose check is `validateOpenSourceBountyRating`. -/
def rateOpenSourceBountyOwnerTx (participantUserId challengeId : ℕ) (score : ℤ)
    (comment : String) (db : Db) : Tx := do
  let challenge ← orFail
    ((db.challenges.get? challengeId).filter fun c => c.participantUserId = participantUserId)
    (bountyError .challengeNotFound "challenge was not found")
  require (bountyError .invalidChallengeState "the bounty owner can only be rated after review")
    (challenge.status = .approved ∨ challenge.status = .rejected)
  require (bountyError .ratingExists
      "the publisher rating for this challenge has already been submitted")
    (challenge.contributorRatedAt ≤ 0)
  return (.challenge challengeId, { db with
    challenges := db.challenges.modify challengeId fun c => { c with
      contributorRatingScore := score, contributorRatingComment := comment,
      contributorRatedAt := env.now, updatedAt := env.now } })

/-- The checks of `tipOpenSourceBountyChallenge` before its transaction, with the trimmed note. -/
def tipOpenSourceBountyChallengeCheck (quota : ℤ) (note : String) : Except Failure String := do
  let note := trimSpace note
  require (bountyError .invalidTip "tip quota must be a positive supported amount")
    (0 < quota ∧ quota ≤ maxOpenSourceBountyTipQuota)
  require (bountyError .invalidTip "tip note is too long") (len note ≤ 500)
  return note

/-- `tipOpenSourceBountyChallenge`, between the reservation of an idempotency key and its
completion. -/
def tipOpenSourceBountyChallengeTx (quota : ℤ)
    (note : String) (db : Db) : Except Failure (TipResult × Db) := do
  let challenge ← orFail (db.challenges.get? challengeId)
    (bountyError .challengeNotFound "challenge was not found")
  let _ ← ownedProject db ownerUserId challenge.projectId
    (bountyError .forbidden "only the bounty owner can tip this contributor")
  require (bountyError .invalidChallengeState "inactive challenges cannot receive tips")
    ¬(challenge.status = .withdrawn ∨ challenge.status = .cancelled)
  require (bountyError .selfTip "bounty owners cannot tip themselves")
    (challenge.participantUserId ≠ ownerUserId)
  let users ← updateWalletQuotaByDelta db.users ownerUserId
    (fun u => u.deleted = false ∧ quota ≤ u.quota) (-quota) (.walletQuota (-quota))
    (bountyError .insufficientBalance "insufficient balance to send this tip")
  let users ← creditParticipant challenge.participantUserId quota users
  let tipped : Challenge :=
    { challenge with tipQuota := challenge.tipQuota + quota, updatedAt := env.now }
  return (⟨challengeId, tipped, quota, walletOf users ownerUserId⟩, { db with
    users
    challenges := db.challenges.modify challengeId fun c => { c with
      tipQuota := c.tipQuota + quota, updatedAt := env.now }
    ledgers := db.ledgers.insert
      { projectId := challenge.projectId, challengeId, userId := ownerUserId,
        counterpartyUserId := challenge.participantUserId, kind := .tipTransfer, quota, note,
        createdAt := env.now } })

end LmmApi.Bounty
