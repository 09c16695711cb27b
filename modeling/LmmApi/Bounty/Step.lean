import LmmApi.Bounty.Dispute
import LmmApi.Lib.Timed

/-!
# The bounty store as a transition system

An operation of the bounty module is a check of its arguments (`Op.prepare`) and one atomic
transaction; `step` runs it at a time and keeps the store when it fails. `Run` is a run of
operations at non-decreasing times.
-/

namespace LmmApi.Bounty

open Guarded

/-! ## Operations -/

inductive Op
  | createDraft (ownerUserId : ℕ) (input : DraftInput)
  | updateDraft (ownerUserId projectId : ℕ) (input : DraftInput)
  | updateContent (actorUserId projectId : ℕ) (input : DraftInput)
  | deleteDraft (ownerUserId projectId : ℕ)
  /-- With the fee recipient the publication was confirmed with, if it was confirmed. -/
  | publish (confirmed : Option ℕ) (ownerUserId projectId : ℕ)
  | setPaused (ownerUserId projectId : ℕ) (paused : Bool)
  | close (ownerUserId projectId : ℕ)
  | setArchived (ownerUserId projectId : ℕ) (archived : Bool)
  | accept (participantUserId projectId : ℕ) (rawGithubHandle : String)
  | submit (participantUserId projectId : ℕ) (issueUrl pullRequestUrl submissionNote : String)
  | withdraw (participantUserId challengeId : ℕ)
  | cancel (ownerUserId challengeId : ℕ)
  | review (ownerUserId challengeId : ℕ) (review : Review)
  | rate (participantUserId challengeId : ℕ) (score : ℤ) (comment : String)
  | tip (ownerUserId challengeId : ℕ) (quota : ℤ) (note : String)
  | openDispute (userId challengeId : ℕ) (reason statement : String)
  | resolveDispute (adminUserId disputeId : ℕ) (action resolution : String)
  deriving DecidableEq

/-- The transaction of an operation whose arguments pass the checks made before it. -/
def Op.prepare (env : Env) : Op → Except Failure (Db → Tx)
  | .createDraft owner input => return createOpenSourceBountyDraft env owner input
  | .updateDraft owner project input => return updateOpenSourceBountyDraft env owner project input
  | .updateContent actor project input =>
    return updateOpenSourceBountyContent env actor project input
  | .deleteDraft owner project => return deleteOpenSourceBountyDraftTx owner project
  | .publish confirmed owner project => return publishOpenSourceBountyTx env confirmed owner project
  | .setPaused owner project paused => return setOpenSourceBountyPaused env owner project paused
  | .close owner project => return closeOpenSourceBountyTx env owner project
  | .setArchived owner project archived =>
    return setOpenSourceBountyArchived env owner project archived
  | .accept participant project handle =>
    return acceptOpenSourceBounty env participant project handle
  | .submit participant project issue pull note =>
    return submitOpenSourceBountyChallenge env participant project issue pull note
  | .withdraw participant challenge =>
    return withdrawOpenSourceBountyChallengeTx env participant challenge
  | .cancel owner challenge => return cancelOpenSourceBountyChallengeTx env owner challenge
  | .review owner challenge args => do
    let args ← reviewOpenSourceBountyChallengeCheck args
    return reviewOpenSourceBountyChallengeTx env owner challenge args
  | .rate participant challenge score comment => do
    let comment ← validateOpenSourceBountyRating score comment
    return rateOpenSourceBountyOwnerTx env participant challenge score comment
  | .tip owner challenge quota note => do
    let note ← tipOpenSourceBountyChallengeCheck quota note
    return fun db => do
      let (result, db) ← tipOpenSourceBountyChallengeTx env owner challenge quota note db
      return (.tipped result, db)
  | .openDispute user challenge reason statement => do
    let (reason, statement) ← openOpenSourceBountyDisputeCheck reason statement
    return openOpenSourceBountyDisputeTx env user challenge reason statement
  | .resolveDispute admin dispute action resolution => do
    let (action, resolution) ← resolveOpenSourceBountyDisputeCheck action resolution
    return resolveOpenSourceBountyDisputeTx env admin dispute action resolution

/-- An operation: its checks, then its transaction. -/
def Op.run (env : Env) (op : Op) (db : Db) : Tx := do
  let tx ← op.prepare env
  tx db

/-- An operation in its surroundings. -/
structure Event where
  env : Env
  op : Op

/-- The time of an event. -/
def Event.time (e : Event) : ℤ := e.env.now

/-- One atomic step of the store. -/
def step (e : Event) (db : Db) : Db := commit (e.op.run e.env db) db

/-- A run of operations whose steps meet the condition `ok`. -/
abbrev Run (ok : Event → Db → Prop) : Timed Db → Timed Db → Prop := Timed.Reaches step Event.time ok

/-- The store with no bounties, at time `t`. -/
def start (t : ℤ) (users : Table User) : Timed Db := ⟨t, .empty users⟩

/-- **A failed operation changes nothing.** -/
theorem step_of_error {e : Event} {db : Db} {failure : Failure}
    (h : e.op.run e.env db = .error failure) : step e db = db := by
  rw [step, h, commit_error]

/-! ## A small store

The witnesses and counterexamples below run on this store: the users are an owner (1), two
contributors (2 and 3) and a super administrator (4). -/

def sampleUsers : Table User :=
  let user (quota role : ℤ) : User := ⟨quota, role, userStatusEnabled, false⟩
  (((Table.empty.insert (user 10000 1)).insert (user 0 1)).insert (user 0 1)).insert
    (user 0 roleRootUser)

/-- A bounty with one slot. -/
def sampleDraft : DraftInput where
  repositoryUrl := "https://github.com/a/b"
  title := "Fix the parser"
  description := "It loses a whole line"
  rules := "Add a test with a fix"
  rewardQuota := 100
  rewardSlots := 1

def sampleIssue : String := "https://github.com/a/b/issues/1"

def samplePull : String := "https://github.com/a/b/pull/2"

/-- An operation at a time, with the default fee rate. -/
def Event.at_ (t : ℤ) (op : Op) : Event := ⟨⟨t, ""⟩, op⟩

/-- The small store after some events. -/
def sampleRun (events : List Event) : Timed Db :=
  Timed.runList step Event.time (start 0 sampleUsers) events

end LmmApi.Bounty
