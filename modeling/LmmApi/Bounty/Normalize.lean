import LmmApi.Bounty.Data
import LmmApi.Lib.GoUrl

/-!
# Validation and pricing

The checks a bounty request passes before its transaction: the normalizers of drafts, repository
URLs, GitHub handles and evidence links, and the publication charge.

The charge is computed in 64-bit integers. `bountyCharge` bounds the product of reward and slots by
the largest one, and a fee rate is at most 10000 basis points, so no later intermediate overflows
and the unbounded integers here take the same values.
-/

namespace LmmApi.Bounty

open Guarded Go

/-! ## GitHub names and links -/

/-- A character allowed inside a GitHub name. -/
def isGithubNameChar (c : Char) : Bool := isAlnum c || c = '_' || c = '.' || c = '-'

/-- `githubNamePattern`: one to a hundred name characters that start and end with a letter or a
digit. -/
def githubNamePattern (s : String) : Bool :=
  match s.toList with
  | [] => false
  | [c] => isAlnum c
  | c :: rest =>
    isAlnum c && rest.dropLast.all isGithubNameChar && rest.dropLast.length ≤ 98 &&
      rest.getLast?.any isAlnum

variable (raw : String)

def normalizeGithubRepositoryUrl : Except Failure String := do
  let u ← orFail ((urlParse (trimSpace raw)).filter fun u =>
      equalFold u.scheme "https" && equalFold u.host "github.com")
    (bountyError .invalidRepository "repository must be a public GitHub HTTPS URL")
  match split (trim (trimSpace u.path) '/') '/' with
  | [owner, repository] =>
    let repository := trimSuffix repository ".git"
    require (bountyError .invalidRepository
        "repository contains an invalid GitHub owner or repository name")
      (githubNamePattern owner ∧ githubNamePattern repository)
    return "https://github.com/" ++ owner ++ "/" ++ repository
  | _ =>
    .error (bountyError .invalidRepository "repository must point to a GitHub owner and repository")

def normalizeGithubHandle : Except Failure String := do
  let handle := trimPrefix (trimSpace raw) "@"
  require (bountyError .invalidHandle "GitHub handle is invalid") (githubNamePattern handle)
  return handle

/-- `normalizeGithubEvidence`: empty for no link, else a link below the bounty's repository. The
letter case of the names and the spelling of the number are the caller's. -/
def normalizeGithubEvidence (raw repositoryUrl kind : String) : Except Failure String := do
  let raw := trimSpace raw
  if raw = "" then return ""
  else
    let u ← orFail ((urlParse raw).filter fun u =>
        equalFold u.scheme "https" && equalFold u.host "github.com")
      (bountyError .invalidEvidence
        "submitted Issue and pull request links must be GitHub HTTPS URLs")
    match split (trim u.path '/') '/' with
    | [owner, name, kind', number] =>
      require (bountyError .invalidEvidence "Issue or pull request URL has an invalid path")
        (kind' = kind)
      require (bountyError .invalidEvidence "Issue or pull request number is invalid")
        (parseInt number).isSome
      let mismatch := bountyError .evidenceRepositoryMismatch
        "every submitted Issue or pull request must belong to the bounty repository"
      let repository ← orFail
        (normalizeGithubRepositoryUrl ("https://github.com/" ++ owner ++ "/" ++ name)).toOption
        mismatch
      require mismatch (equalFold repository repositoryUrl)
      return repository ++ "/" ++ kind ++ "/" ++ number
    | _ => .error (bountyError .invalidEvidence "Issue or pull request URL has an invalid path")

/-! ## The publication charge -/

/-- The largest 64-bit integer. -/
def maxInt : ℤ := 2 ^ 63 - 1

def defaultOpenSourceBountyFeeRateBps : ℤ := 100

/-- Between `lo` and `hi` decimal digits. -/
def isDigits (lo hi : ℕ) (l : List Char) : Bool :=
  l.all Char.isDigit && lo ≤ l.length && l.length ≤ hi

/-- `openSourceBountyFeeRatePattern`: a percentage from 0 to 100 with at most two decimals. -/
def openSourceBountyFeeRatePattern (s : String) : Bool :=
  match s.toList.splitOn '.' with
  | [whole] => whole = ['1', '0', '0'] || isDigits 1 2 whole
  | [whole, fraction] =>
    isDigits 1 2 fraction &&
      (isDigits 1 2 whole || whole = ['1', '0', '0'] && fraction.all (· = '0'))
  | _ => false

def parseOpenSourceBountyFeeRateBasisPoints : Option ℤ :=
  let value := trimSpace raw
  if openSourceBountyFeeRatePattern value then
    match value.toList.splitOn '.' with
    | [whole] => some (decimalVal whole * 100)
    | whole :: fraction :: _ =>
      let fraction := fraction ++ List.replicate (2 - fraction.length) '0'
      some (decimalVal whole * 100 + decimalVal fraction)
    | [] => none
  else none

/-- `GetOpenSourceBountyFeeConfig`. -/
def getOpenSourceBountyFeeRateBps : ℤ :=
  (parseOpenSourceBountyFeeRateBasisPoints raw).getD defaultOpenSourceBountyFeeRateBps

def bountyCharge (rewardQuota rewardSlots : ℤ) : Except Failure ℤ := do
  require (bountyError .invalidQuota "bounty quota is too large")
    (0 < rewardQuota ∧ 0 < rewardSlots ∧ rewardQuota ≤ maxInt / rewardSlots)
  return rewardQuota * rewardSlots

/-- `OpenSourceBountyPublicationCharge`. -/
structure PublicationCharge where
  grossQuota : ℤ
  netRewardQuota : ℤ
  escrowQuota : ℤ
  platformFeeQuota : ℤ
  platformFeeRateBps : ℤ
  totalQuota : ℤ

def calculateOpenSourceBountyPublicationCharge (env : Env) (project : Project) :
    Except Failure PublicationCharge := do
  let grossTotal ← bountyCharge project.rewardQuota project.rewardSlots
  let bps := getOpenSourceBountyFeeRateBps env.feeRate
  let reward := project.rewardQuota
  let feePerSlot := reward / 10000 * bps + (reward % 10000 * bps + 9999) / 10000
  require (bountyError .invalidFee "platform fee leaves no contributor reward")
    (0 ≤ feePerSlot ∧ feePerSlot < reward)
  let netReward := reward - feePerSlot
  let escrow := netReward * project.rewardSlots
  let fee := feePerSlot * project.rewardSlots
  require (bountyError .invalidQuota "bounty quota is too large")
    (0 ≤ escrow ∧ 0 ≤ fee ∧ escrow ≤ maxInt ∧ fee ≤ maxInt ∧ escrow + fee = grossTotal)
  return { grossQuota := grossTotal, netRewardQuota := netReward, escrowQuota := escrow,
           platformFeeQuota := fee, platformFeeRateBps := bps, totalQuota := grossTotal }

/-- **The charge is conserved**: what the publisher pays is the escrow and the fee, and the escrow
is one net reward for every slot. -/
theorem calculateOpenSourceBountyPublicationCharge_spec {env : Env} {project : Project}
    {charge : PublicationCharge}
    (h : calculateOpenSourceBountyPublicationCharge env project = .ok charge) :
    charge.totalQuota = charge.escrowQuota + charge.platformFeeQuota ∧
      charge.escrowQuota = charge.netRewardQuota * project.rewardSlots ∧
      0 < charge.netRewardQuota ∧ 0 < project.rewardSlots ∧ 0 ≤ charge.platformFeeQuota := by
  simp only [calculateOpenSourceBountyPublicationCharge, bountyCharge, eq_ok] at h
  obtain ⟨_, ⟨⟨-, hslots, -⟩, rfl⟩, ⟨-, hfee⟩, ⟨-, hfee', -, -, hsum⟩, rfl⟩ := h
  refine ⟨hsum.symm, rfl, ?_, hslots, hfee'⟩
  change 0 < project.rewardQuota - _
  omega

/-! ## Drafts -/

/-- `normalizeBountyText`, on the three texts of a draft. -/
def normalizeBountyText (input : DraftInput) : Except Failure DraftInput := do
  let input := { input with
    title := trimSpace input.title, description := trimSpace input.description,
    rules := trimSpace input.rules }
  require (bountyError .invalidTitle "title must contain 4 to 120 characters")
    (4 ≤ len input.title ∧ len input.title ≤ 120)
  require (bountyError .invalidDescription "description must contain 20 to 2000 characters")
    (20 ≤ len input.description ∧ len input.description ≤ 2000)
  require (bountyError .invalidRules "rules must contain 20 to 5000 characters")
    (20 ≤ len input.rules ∧ len input.rules ≤ 5000)
  return input

def normalizeBountyDraft (input : DraftInput) : Except Failure DraftInput := do
  let repositoryUrl ← normalizeGithubRepositoryUrl input.repositoryUrl
  let input ← normalizeBountyText { input with repositoryUrl }
  require (bountyError .invalidQuota "reward quota must be positive") (0 < input.rewardQuota)
  require (bountyError .invalidSlots "reward slots must be between 1 and 100")
    (1 ≤ input.rewardSlots ∧ input.rewardSlots ≤ 100)
  let _ ← bountyCharge input.rewardQuota input.rewardSlots
  return input

/-- A draft has a slot. -/
theorem normalizeBountyDraft_slots {input normalized : DraftInput}
    (h : normalizeBountyDraft input = .ok normalized) : 0 < normalized.rewardSlots := by
  simp only [normalizeBountyDraft, eq_ok] at h
  obtain ⟨_, -, _, -, -, ⟨hslots, -⟩, _, -, rfl⟩ := h
  omega

example : normalizeGithubEvidence " https://GitHub.com/Acme/Tool.git/pull/007 "
    "https://github.com/acme/tool" "pull" = .ok "https://github.com/Acme/Tool/pull/007" := by
  decide +kernel

end LmmApi.Bounty
