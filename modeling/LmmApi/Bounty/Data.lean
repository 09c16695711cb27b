import LmmApi.Wallet

/-!
# The bounty store

The tables of the open-source bounty module: projects, challenges, disputes and the ledger, beside
the users whose wallets the module moves. A row's primary key is its key in the `Table`, and the
reference `0` stands for every id that names no row.

The keys a unique index guards (`RewardPayoutKey`, `CaseKey`, `OpenKey`) are texts built from
numbers in the source; here they are the numbers.
-/

namespace LmmApi.Bounty

inductive ProjectStatus
  | draft | published | paused | completed | closed
  deriving DecidableEq

inductive ChallengeStatus
  | accepted | submitted | approved | rejected | withdrawn | cancelled
  deriving DecidableEq

inductive DisputeStatus
  | open_ | resolvedPaid | resolvedDenied
  deriving DecidableEq

inductive LedgerKind
  | escrowFund | rewardTransfer | escrowRefund | tipTransfer | platformFee | disputeRewardTransfer
  deriving DecidableEq

def maxOpenSourceBountyTipQuota : ℤ := 1000000000

/-- `OpenSourceBountyAppealWindowSeconds`: seven days. -/
def appealWindowSeconds : ℤ := 7 * 24 * 60 * 60

/-- `OpenSourceBountyProject`. -/
structure Project where
  ownerUserId : ℕ
  repositoryUrl : String
  title : String
  description : String
  rules : String
  rewardQuota : ℤ
  netRewardQuota : ℤ := 0
  rewardSlots : ℤ
  escrowQuota : ℤ := 0
  platformFeeRateBps : ℤ := 0
  platformFeeQuota : ℤ := 0
  status : ProjectStatus := .draft
  createdAt : ℤ
  updatedAt : ℤ
  publishedAt : ℤ := 0
  closedAt : ℤ := 0
  archivedAt : ℤ := 0

/-- `OpenSourceBountyChallenge`. -/
structure Challenge where
  projectId : ℕ
  participantUserId : ℕ
  githubHandle : String
  status : ChallengeStatus
  issueUrl : String := ""
  pullRequestUrl : String := ""
  submissionNote : String := ""
  reviewNote : String := ""
  rewardQuota : ℤ
  tipQuota : ℤ := 0
  ownerRatingScore : ℤ := 0
  ownerRatingComment : String := ""
  ownerRatedAt : ℤ := 0
  contributorRatingScore : ℤ := 0
  contributorRatingComment : String := ""
  contributorRatedAt : ℤ := 0
  ownerRatingOverturned : Bool := false
  acceptedAt : ℤ
  submittedAt : ℤ := 0
  reviewedAt : ℤ := 0
  rejectedAt : ℤ := 0
  paidAt : ℤ := 0
  createdAt : ℤ
  updatedAt : ℤ
  deriving DecidableEq

/-- `OpenSourceBountyLedger`. -/
structure Ledger where
  projectId : ℕ
  challengeId : ℕ := 0
  userId : ℕ
  counterpartyUserId : ℕ := 0
  kind : LedgerKind
  quota : ℤ
  note : String := ""
  /-- `challenge:<id>`; unique among the rows that have one. -/
  rewardPayoutKey : Option ℕ := none
  createdAt : ℤ

/-- `OpenSourceBountyDispute`. -/
structure Dispute where
  challengeId : ℕ
  projectId : ℕ
  openedByUserId : ℕ
  againstUserId : ℕ
  /-- `challenge:<id>:user:<id>`; unique. -/
  caseKey : ℕ × ℕ
  /-- `challenge:<id>`; unique among the rows that have one. -/
  openKey : Option ℕ
  reason : String
  statement : String
  projectTitleSnapshot : String
  repositoryUrlSnapshot : String
  projectRulesSnapshot : String
  projectEscrowQuotaSnapshot : ℤ
  challengeStatusSnapshot : ChallengeStatus
  issueUrlSnapshot : String
  pullRequestUrlSnapshot : String
  submissionNoteSnapshot : String
  reviewNoteSnapshot : String
  rewardQuotaSnapshot : ℤ
  tipQuotaSnapshot : ℤ
  ownerRatingScoreSnapshot : ℤ
  ownerRatingCommentSnapshot : String
  contributorRatingScoreSnapshot : ℤ
  contributorRatingCommentSnapshot : String
  status : DisputeStatus
  resolution : String := ""
  resolvedByUserId : ℕ := 0
  createdAt : ℤ
  updatedAt : ℤ
  resolvedAt : ℤ := 0

/-- `OpenSourceBountyDraftInput`. -/
structure DraftInput where
  repositoryUrl : String
  title : String
  description : String
  rules : String
  rewardQuota : ℤ
  rewardSlots : ℤ
  deriving DecidableEq

/-- The tables a bounty transaction reads and writes. -/
structure Db where
  users : Table User
  projects : Table Project
  challenges : Table Challenge
  disputes : Table Dispute
  ledgers : Table Ledger

/-- The store without bounties, over a table of users. -/
def Db.empty (users : Table User) : Db := ⟨users, .empty, .empty, .empty, .empty⟩

/-- What a transaction reads from its surroundings: the clock and the text of the fee-rate option.
-/
structure Env where
  now : ℤ
  feeRate : String

/-- `OpenSourceBountyTipResult`, with the id of the challenge. -/
structure TipResult where
  challengeId : ℕ
  challenge : Challenge
  transferredQuota : ℤ
  remainingQuota : ℤ
  deriving DecidableEq

/-- What an operation returns. -/
inductive Outcome
  /-- A project was created or changed. -/
  | project (id : ℕ)
  /-- A challenge was created or changed. -/
  | challenge (id : ℕ)
  | published (projectId : ℕ) (chargedQuota : ℤ)
  | closed (projectId : ℕ) (refundedQuota : ℤ)
  | reviewed (challengeId : ℕ) (transferredQuota : ℤ)
  | tipped (result : TipResult)
  | disputed (disputeId : ℕ)
  | resolved (disputeId : ℕ) (transferredQuota : ℤ)
  /-- The dispute had already been resolved with the same action: nothing was done. -/
  | alreadyResolved (disputeId : ℕ)
  deriving DecidableEq

/-! ## Errors -/

/-- The codes of `OpenSourceBountyError`, without their common beginning `OPEN_SOURCE_BOUNTY`. -/
inductive ErrorCode
  | activeChallenges | alreadyAccepted | appealWindow | archiveUnavailable | challengeNotFound
  | disputeConflict | disputeExists | disputeIdentityMismatch | disputeNotFound | disputeNotPayable
  | disputeResolved | disputeWindowExpired | draftNotFound | duplicatePullRequest
  | escrowInsufficient | evidenceRepositoryMismatch | evidenceRequired | feeRecipientNotFound
  | forbidden | full | idempotencyInProgress | idempotencyMismatch | insufficientBalance
  | invalidChallengeState | invalidDescription | invalidDispute | invalidDisputeResolution
  | invalidEvidence | invalidFee | invalidHandle | invalidIdempotencyKey | invalidQuota
  | invalidRating | invalidRepository | invalidReview | invalidRules | invalidSlots | invalidState
  | invalidSubmission | invalidTip | invalidTitle | mcpConfirmationInvalid | notAccepting | notFound
  | openDisputes | ownerCannotAccept | ownerNotFound | participantNotFound | ratingExists
  | retryPending | selfTip | unauthorized
  deriving DecidableEq

/-- What a failed operation returns. -/
inductive Failure
  /-- An `OpenSourceBountyError`. -/
  | bounty (code : ErrorCode) (message : String)
  /-- The error of `ValidateWalletQuota`. -/
  | walletQuota (quota : ℤ)
  /-- `gorm.ErrRecordNotFound`. -/
  | recordNotFound
  /-- The violation of a unique index. -/
  | uniqueViolation
  /-- An error of `json.Unmarshal`. -/
  | malformedJson
  /-- Any other error of the database. -/
  | database (message : String)
  deriving DecidableEq

def bountyError (code : ErrorCode) (message : String) : Failure := .bounty code message

/-- `OpenSourceBountyErrorCode`, `none` for an internal error. -/
def openSourceBountyErrorCode : Failure → Option ErrorCode
  | .bounty code _ => some code
  | _ => none

end LmmApi.Bounty
