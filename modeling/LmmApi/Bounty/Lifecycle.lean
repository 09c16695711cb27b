import LmmApi.Bounty.Normalize

/-!
# The life of a bounty

The operations of a bounty's owner on the project itself: drafts, publication, pausing, closing and
archiving. Each is a check of its arguments followed by one transaction, whose body returns the
outcome with the new tables, or fails and leaves them alone.

A bounty is published by moving its gross quota out of the owner's wallet, into the project's escrow
and the platform fee, and closed by moving the rest of the escrow back. `publishOpenSourceBountyTx`
takes the fee recipient a confirmation was shown to the user with, if there was one.
-/

namespace LmmApi.Bounty

open Guarded

/-- The result of a transaction. -/
abbrev Tx := Except Failure (Outcome × Db)

def isAdmin (users : Table User) (userId : ℕ) : Prop :=
  userId ≠ 0 ∧ ∃ u ∈ users.get? userId, u.deleted = false ∧ roleAdminUser ≤ u.role
  deriving Decidable

/-- The error of a missing project. -/
def projectNotFound : Failure := bountyError .notFound "bounty project was not found"

variable (db : Db) (env : Env) (ownerUserId projectId : ℕ)

/-- The project `projectId` of the owner. -/
def ownedProject (missing : Failure) : Except Failure Project :=
  orFail ((db.projects.get? projectId).filter fun p => p.ownerUserId = ownerUserId) missing

theorem ownedProject_eq_ok {db : Db} {ownerUserId projectId : ℕ} {missing : Failure} {p : Project} :
    ownedProject db ownerUserId projectId missing = .ok p ↔
      db.projects.get? projectId = some p ∧ p.ownerUserId = ownerUserId := by
  simp [ownedProject, orFail_eq_ok, Option.filter_eq_some_iff]

/-! ## Drafts -/

def createOpenSourceBountyDraft (ownerUserId : ℕ) (input : DraftInput) (db : Db) : Tx := do
  require (bountyError .unauthorized "invalid bounty owner") (0 < ownerUserId)
  let input ← normalizeBountyDraft input
  let project : Project :=
    { ownerUserId, repositoryUrl := input.repositoryUrl, title := input.title,
      description := input.description, rules := input.rules, rewardQuota := input.rewardQuota,
      rewardSlots := input.rewardSlots, createdAt := env.now, updatedAt := env.now }
  return (.project db.projects.next, { db with projects := db.projects.insert project })

def updateOpenSourceBountyDraft (input : DraftInput) (db : Db) : Tx := do
  let input ← normalizeBountyDraft input
  let missing := bountyError .draftNotFound "editable bounty draft was not found"
  let project ← ownedProject db ownerUserId projectId missing
  require missing (project.status = .draft)
  return (.project projectId, { db with
    projects := db.projects.modify projectId fun p => { p with
      repositoryUrl := input.repositoryUrl, title := input.title, description := input.description,
      rules := input.rules, rewardQuota := input.rewardQuota, rewardSlots := input.rewardSlots,
      updatedAt := env.now } })

def deleteOpenSourceBountyDraftTx (db : Db) : Tx := do
  let missing := bountyError .draftNotFound "deletable bounty draft was not found"
  let project ← ownedProject db ownerUserId projectId missing
  require missing (project.status = .draft)
  return (.project projectId,
    { db with projects := db.projects.eraseWhere fun i _ => i = projectId })

/-! ## Listings -/

/-- A bounty whose escrow is held for its challenges. -/
def ProjectStatus.Active (s : ProjectStatus) : Prop := s = .published ∨ s = .paused
  deriving Decidable

def updateOpenSourceBountyContent (actorUserId projectId : ℕ) (input : DraftInput)
    (db : Db) : Tx := do
  require (bountyError .unauthorized "invalid bounty editor") (0 < actorUserId)
  let text ← normalizeBountyText input
  let project ← orFail (db.projects.get? projectId) projectNotFound
  require (bountyError .invalidState "only an active published bounty can be edited")
    project.status.Active
  require (bountyError .forbidden "only the bounty owner or an administrator can edit this bounty")
    (project.ownerUserId = actorUserId ∨ isAdmin db.users actorUserId)
  return (.project projectId, { db with
    projects := db.projects.modify projectId fun p => { p with
      title := text.title, description := text.description, rules := text.rules,
      updatedAt := env.now } })

/-- The status a listing is paused or resumed from. -/
def pausedFrom (paused : Bool) : ProjectStatus := if paused then .published else .paused

/-- The status a listing is paused or resumed to. -/
def pausedTo (paused : Bool) : ProjectStatus := if paused then .paused else .published

def setOpenSourceBountyPaused (paused : Bool) (db : Db) : Tx := do
  let missing := bountyError .invalidState "bounty cannot change to the requested state"
  let project ← ownedProject db ownerUserId projectId missing
  require missing (project.status = pausedFrom paused)
  return (.project projectId, { db with
    projects := db.projects.modify projectId fun p => { p with
      status := pausedTo paused, updatedAt := env.now } })

/-- The time of archiving after a change to `archived`. -/
def archivedAtAfter (archived : Bool) : ℤ := if archived then env.now else 0

/-- `setOpenSourceBountyArchived`. Nothing is written when the project is as requested. -/
def setOpenSourceBountyArchived (archived : Bool) (db : Db) : Tx := do
  require projectNotFound (0 < ownerUserId ∧ 0 < projectId)
  let project ← ownedProject db ownerUserId projectId projectNotFound
  require (bountyError .archiveUnavailable "only completed or closed bounties can be archived")
    (project.status = .completed ∨ project.status = .closed)
  return (.project projectId, { db with
    projects := db.projects.modify projectId fun p =>
      if decide (0 < p.archivedAt) = archived then p
      else { p with archivedAt := archivedAtAfter env archived, updatedAt := env.now } })

/-! ## Publication -/

/-- `openSourceBountyPlatformFeeRecipient`: the first enabled super administrator. -/
def openSourceBountyPlatformFeeRecipient (users : Table User) : Except Failure ℕ := do
  let recipient ← orFail (users.first? fun _ u =>
      u.role = roleRootUser ∧ u.status = userStatusEnabled ∧ u.deleted = false)
    (bountyError .feeRecipientNotFound
      "an enabled super administrator is required to receive the platform fee")
  return recipient.1

/-- The fee's credit in `publishOpenSourceBounty`, with its recipient; no fee has the recipient `0`.
A confirmed publication fails when the recipient is not the `confirmed` one. -/
def creditPlatformFee (confirmed : Option ℕ) (fee : ℤ) (users : Table User) :
    Except Failure (ℕ × Table User) :=
  if 0 < fee then do
    let recipient ← openSourceBountyPlatformFeeRecipient users
    require (bountyError .mcpConfirmationInvalid
        "the platform fee recipient changed; request a new confirmation")
      (∀ r ∈ confirmed, r = recipient)
    let users ← updateWalletQuotaByDelta users recipient
      (fun u => u.role = roleRootUser ∧ u.status = userStatusEnabled ∧ u.deleted = false) fee
      (.walletQuota fee)
      (bountyError .feeRecipientNotFound "the super administrator fee account is unavailable")
    return (recipient, users)
  else return (0, users)

/-- The ledger rows of a publication. -/
def publicationEntries (ownerUserId projectId recipient : ℕ)
    (charge : PublicationCharge) : List Ledger :=
  { projectId, userId := ownerUserId, kind := .escrowFund, quota := charge.escrowQuota,
    createdAt := env.now } ::
  if 0 < charge.platformFeeQuota then
    [{ projectId, userId := ownerUserId, counterpartyUserId := recipient, kind := .platformFee,
       quota := charge.platformFeeQuota, createdAt := env.now }]
  else []

/-- Add rows in order. -/
def insertAll (ledgers : Table Ledger) (entries : List Ledger) : Table Ledger :=
  entries.foldl Table.insert ledgers

def publishOpenSourceBountyTx (confirmed : Option ℕ) (ownerUserId projectId : ℕ)
    (db : Db) : Tx := do
  let project ← ownedProject db ownerUserId projectId projectNotFound
  require (bountyError .invalidState "only a draft bounty can be published")
    (project.status = .draft)
  let charge ← calculateOpenSourceBountyPublicationCharge env project
  let users ← updateWalletQuotaByDelta db.users ownerUserId
    (fun u => u.deleted = false ∧ charge.totalQuota ≤ u.quota) (-charge.totalQuota)
    (.walletQuota (-charge.totalQuota))
    (bountyError .insufficientBalance "insufficient balance to publish this bounty")
  let (recipient, users) ← creditPlatformFee confirmed charge.platformFeeQuota users
  return (.published projectId charge.totalQuota, { db with
    users
    projects := db.projects.modify projectId fun p => { p with
      status := .published, escrowQuota := charge.escrowQuota,
      netRewardQuota := charge.netRewardQuota, platformFeeRateBps := charge.platformFeeRateBps,
      platformFeeQuota := charge.platformFeeQuota, publishedAt := env.now, updatedAt := env.now }
    ledgers := insertAll db.ledgers
      (publicationEntries env ownerUserId projectId recipient charge) })

/-! ## Closing -/

/-- A dispute that an administrator or an approval has settled. -/
def DisputeStatus.Resolved (s : DisputeStatus) : Prop := s = .resolvedPaid ∨ s = .resolvedDenied
  deriving Decidable

/-- Some dispute on the challenge is open. -/
def hasOpenDispute (challengeId : ℕ) : Prop :=
  db.disputes.Any fun _ d => d.challengeId = challengeId ∧ d.status = .open_
  deriving Decidable

/-- Some dispute on the challenge, whoever opened it, is resolved. -/
def hasResolvedDispute (challengeId : ℕ) : Prop :=
  db.disputes.Any fun _ d => d.challengeId = challengeId ∧ d.status.Resolved
  deriving Decidable

/-- The rejections that `closeOpenSourceBounty` and `AcceptOpenSourceBounty` treat as appealable:
younger than the appeal window, with no resolved dispute of any opener. -/
def appealableRejection (now : ℤ) (challengeId : ℕ) (c : Challenge) : Prop :=
  c.status = .rejected ∧ now - appealWindowSeconds < c.rejectedAt ∧
    ¬hasResolvedDispute db challengeId
  deriving Decidable

/-- The refund's credit in `closeOpenSourceBounty`. -/
def creditRefund (ownerUserId : ℕ) (refund : ℤ) (users : Table User) :
    Except Failure (Table User) :=
  if 0 < refund then
    updateWalletQuotaByDelta users ownerUserId (fun u => u.deleted = false) refund
      (.walletQuota refund) (bountyError .ownerNotFound "bounty owner was not found")
  else return users

/-- The ledger row of a refund. -/
def refundEntries (refund : ℤ) : List Ledger :=
  if 0 < refund then
    [{ projectId, userId := ownerUserId, kind := .escrowRefund, quota := refund,
       createdAt := env.now }]
  else []

def closeOpenSourceBountyTx (db : Db) : Tx := do
  let project ← ownedProject db ownerUserId projectId projectNotFound
  require (bountyError .invalidState "only a published or paused bounty can be closed")
    project.status.Active
  require (bountyError .activeChallenges
      "cancel unsubmitted challenges or review submitted work before closing the bounty")
    ¬db.challenges.Any fun _ c =>
      c.projectId = projectId ∧ (c.status = .accepted ∨ c.status = .submitted)
  require (bountyError .openDisputes
      "resolve open bounty disputes before closing or refunding escrow")
    ¬db.disputes.Any fun _ d => d.projectId = projectId ∧ d.status = .open_
  require (bountyError .appealWindow
      "rejected challenges remain appealable for seven days before escrow can be refunded")
    ¬db.challenges.Any fun i c => c.projectId = projectId ∧ appealableRejection db env.now i c
  let users ← creditRefund ownerUserId project.escrowQuota db.users
  return (.closed projectId project.escrowQuota, { db with
    users
    projects := db.projects.modify projectId fun p => { p with
      status := .closed, escrowQuota := 0, closedAt := env.now, updatedAt := env.now }
    ledgers := insertAll db.ledgers (refundEntries env ownerUserId projectId project.escrowQuota) })

end LmmApi.Bounty
