import LmmApi.Bounty.Step

/-!
# What the operations do

`Transition` says once what a committed operation can do to the tables, with the guards it passed,
and `run_transition` that every operation does one of these things. The invariants of the store are
proved over the transitions and never over the operations.

The relation forgets what no invariant reads: texts, ratings, times other than the rejection's, and
which of several operations made the same kind of change.
-/

namespace LmmApi.Bounty

open Guarded Option Table

/-! ## The relation -/

/-- What an edit of a project keeps: the terms of a published project, and its status up to
pausing. -/
structure Project.Edit (p q : Project) : Prop where
  owner : q.ownerUserId = p.ownerUserId
  net : q.netRewardQuota = p.netRewardQuota
  escrow : q.escrowQuota = p.escrowQuota
  status : q.status = p.status ∨ p.status.Active ∧ q.status.Active
  slots : p.status ≠ .draft → q.rewardSlots = p.rewardSlots
  slots_pos : 0 < p.rewardSlots → 0 < q.rewardSlots

/-- What every change of a challenge keeps. -/
structure Challenge.SameDeal (c c' : Challenge) : Prop where
  project : c'.projectId = c.projectId
  participant : c'.participantUserId = c.participantUserId
  reward : c'.rewardQuota = c.rewardQuota

/-- What a review or a remark on a challenge keeps besides: its evidence. -/
structure Challenge.SameWork (c c' : Challenge) : Prop extends SameDeal c c' where
  pullRequest : c'.pullRequestUrl = c.pullRequestUrl

/-- A remark on a challenge, which leaves its state alone. -/
structure Challenge.Remark (c c' : Challenge) : Prop extends SameWork c c' where
  status : c'.status = c.status
  rejectedAt : c'.rejectedAt = c.rejectedAt

/-- What a resolution of a dispute keeps. -/
structure Dispute.SameCase (d d' : Dispute) : Prop where
  challenge : d'.challengeId = d.challengeId
  project : d'.projectId = d.projectId
  opener : d'.openedByUserId = d.openedByUserId

/-- The payout of the challenge `id` by the ledger row `entry`. -/
structure PayoutEntry (id : ℕ) (c : Challenge) (entry : Ledger) : Prop where
  kind : entry.kind = .rewardTransfer ∨ entry.kind = .disputeRewardTransfer
  project : entry.projectId = c.projectId
  challenge : entry.challengeId = id
  counterparty : entry.counterpartyUserId = c.participantUserId
  quota : entry.quota = c.rewardQuota
  key : entry.rewardPayoutKey = some id

/-- A payable challenge: submitted, or rejected and paid through an open dispute of its
participant. -/
def Payable (db : Db) (op : Op) (id : ℕ) (c : Challenge) : Prop :=
  c.status = .submitted ∨ c.status = .rejected ∧ c.pullRequestUrl ≠ "" ∧
    ∃ admin did action resolution d, op = .resolveDispute admin did action resolution ∧
      parseAction (Go.trimSpace action) = some .pay ∧ db.disputes.get? did = some d ∧
      d.challengeId = id ∧ d.status = .open_ ∧ d.openedByUserId = c.participantUserId

/-- **What a committed operation can do** to the store at time `now`. -/
inductive Transition (now : ℤ) (op : Op) (db : Db) : Db → Prop
  | same : Transition now op db db
  | newDraft (p : Project) (status : p.status = .draft) (escrow : p.escrowQuota = 0)
      (slots : 0 < p.rewardSlots) :
      Transition now op db { db with projects := db.projects.insert p }
  | edit (id : ℕ) (p : Project) (f : Project → Project) (get : db.projects.get? id = some p)
      (edit : p.Edit (f p)) :
      Transition now op db { db with projects := db.projects.modify id f }
  | deleteDraft (id : ℕ) (p : Project) (get : db.projects.get? id = some p)
      (status : p.status = .draft) :
      Transition now op db { db with projects := db.projects.eraseWhere fun i _ => i = id }
  | publish (id : ℕ) (p : Project) (f : Project → Project) (env : Env) (charge : PublicationCharge)
      (recipient : ℕ) (users : Table User) (get : db.projects.get? id = some p)
      (status : p.status = .draft)
      (charged : calculateOpenSourceBountyPublicationCharge env p = .ok charge)
      (published : (f p).status = .published ∧ (f p).escrowQuota = charge.escrowQuota ∧
        (f p).netRewardQuota = charge.netRewardQuota ∧ (f p).rewardSlots = p.rewardSlots ∧
        (f p).ownerUserId = p.ownerUserId)
      (moved : Moved db.users users
        [(p.ownerUserId, -charge.totalQuota), (recipient, charge.platformFeeQuota)]) :
      Transition now op db { db with
        users
        projects := db.projects.modify id f
        ledgers := insertAll db.ledgers (publicationEntries env p.ownerUserId id recipient charge) }
  | close (id : ℕ) (p : Project) (f : Project → Project) (env : Env) (users : Table User)
      (isOp : op = .close p.ownerUserId id) (get : db.projects.get? id = some p)
      (status : p.status.Active)
      (idle : ∀ j c, db.challenges.get? j = some c → c.projectId = id →
        c.status ≠ .accepted ∧ c.status ≠ .submitted ∧ ¬appealableRejection db now j c)
      (settled : ∀ j d, db.disputes.get? j = some d → d.projectId = id → d.status ≠ .open_)
      (closed : (f p).status = .closed ∧ (f p).escrowQuota = 0 ∧
        (f p).netRewardQuota = p.netRewardQuota ∧ (f p).rewardSlots = p.rewardSlots ∧
        (f p).ownerUserId = p.ownerUserId)
      (moved : Moved db.users users [(p.ownerUserId, max p.escrowQuota 0)]) :
      Transition now op db { db with
        users
        projects := db.projects.modify id f
        ledgers := insertAll db.ledgers (refundEntries env p.ownerUserId id p.escrowQuota) }
  | accept (p : Project) (c : Challenge) (handle : String)
      (isOp : op = .accept c.participantUserId c.projectId handle)
      (get : db.projects.get? c.projectId = some p) (published : p.status = .published)
      (other : p.ownerUserId ≠ c.participantUserId) (status : c.status = .accepted)
      (noWork : c.pullRequestUrl = "") (reward : c.rewardQuota = challengeReward p)
      (free : db.challenges.count (fun i c' => c'.projectId = c.projectId ∧
        occupiesSlot db now i c') < p.rewardSlots) :
      Transition now op db { db with challenges := db.challenges.insert c }
  | submit (id : ℕ) (c : Challenge) (f : Challenge → Challenge) (participant : ℕ)
      (issue pull note : String) (isOp : op = .submit participant c.projectId issue pull note)
      (participates : c.participantUserId = participant)
      (get : db.challenges.get? id = some c)
      (last : db.challenges.last? (fun _ c' => c'.projectId = c.projectId ∧
        c'.participantUserId = participant ∧ c'.status = .accepted) = some (id, c))
      (same : c.SameDeal (f c)) (status : c.status = .accepted)
      (submitted : (f c).status = .submitted)
      (evidence : ∃ p, db.projects.get? c.projectId = some p ∧
        normalizeGithubEvidence pull p.repositoryUrl "pull" = .ok (f c).pullRequestUrl)
      (fresh : (f c).pullRequestUrl = "" ∨ ∀ j c', db.challenges.get? j = some c' → j ≠ id →
        c'.projectId = c.projectId → c'.pullRequestUrl = (f c).pullRequestUrl →
        c'.status ≠ .submitted ∧ c'.status ≠ .approved) :
      Transition now op db { db with challenges := db.challenges.modify id f }
  | release (id : ℕ) (c : Challenge) (f : Challenge → Challenge)
      (get : db.challenges.get? id = some c) (same : c.SameWork (f c))
      (status : c.status = .accepted ∨ c.status = .submitted)
      (released : (f c).status = .withdrawn ∨ (f c).status = .cancelled)
      (undisputed : ¬hasOpenDispute db id) :
      Transition now op db { db with challenges := db.challenges.modify id f }
  | reject (id : ℕ) (c : Challenge) (f : Challenge → Challenge)
      (get : db.challenges.get? id = some c) (same : c.SameWork (f c))
      (status : c.status = .submitted) (rejected : (f c).status = .rejected)
      (rejectedAt : (f c).rejectedAt = now) :
      Transition now op db { db with challenges := db.challenges.modify id f }
  | remark (id : ℕ) (c : Challenge) (f : Challenge → Challenge)
      (get : db.challenges.get? id = some c) (remark : c.Remark (f c)) :
      Transition now op db { db with challenges := db.challenges.modify id f }
  | tip (id : ℕ) (c : Challenge) (f : Challenge → Challenge) (entry : Ledger)
      (users : Table User) (get : db.challenges.get? id = some c) (remark : c.Remark (f c))
      (project : ∃ p, db.projects.get? c.projectId = some p ∧ p.ownerUserId = entry.userId)
      (isTip : entry.kind = .tipTransfer ∧ entry.rewardPayoutKey = none ∧
        entry.projectId = c.projectId ∧ entry.challengeId = id)
      (moved : Moved db.users users
        [(entry.userId, -entry.quota), (entry.counterpartyUserId, entry.quota)]) :
      Transition now op db { db with
        users, challenges := db.challenges.modify id f, ledgers := db.ledgers.insert entry }
  | pay (id : ℕ) (c : Challenge) (p : Project) (f : Challenge → Challenge) (entry : Ledger)
      (users : Table User) (q : ℕ → Dispute → Prop) [∀ i d, Decidable (q i d)]
      (g : Dispute → Dispute)
      (get : db.challenges.get? id = some c) (getProject : db.projects.get? c.projectId = some p)
      (payable : Payable db op id c) (same : c.SameWork (f c)) (approved : (f c).status = .approved)
      (positive : 0 < c.rewardQuota) (covered : c.rewardQuota ≤ p.escrowQuota)
      (isPayout : PayoutEntry id c entry)
      (unpaid : ∀ j l, db.ledgers.get? j = some l → l.rewardPayoutKey ≠ some id)
      (moved : Moved db.users users [(c.participantUserId, c.rewardQuota)])
      (settles : ∀ j d, db.disputes.get? j = some d → q j d →
        d.challengeId = id ∧ d.status = .open_ ∧ d.SameCase (g d) ∧ (g d).status = .resolvedPaid) :
      Transition now op db
        { users, projects := db.projects.modify c.projectId (Project.payReward now c.rewardQuota)
          challenges := db.challenges.modify id f, disputes := db.disputes.modifyWhere q g
          ledgers := db.ledgers.insert entry }
  | openDispute (c : Challenge) (p : Project) (d : Dispute)
      (get : db.challenges.get? d.challengeId = some c)
      (getProject : db.projects.get? c.projectId = some p)
      (sameProject : d.projectId = c.projectId) (status : d.status = .open_)
      (live : p.status ≠ .draft ∧ p.status ≠ .closed)
      (active : c.status ≠ .withdrawn ∧ c.status ≠ .cancelled)
      (inWindow : c.status = .rejected → now - appealWindowSeconds < c.rejectedAt)
      (first : ∀ j d', db.disputes.get? j = some d' → d'.challengeId = d.challengeId →
        d'.openedByUserId ≠ d.openedByUserId) :
      Transition now op db { db with disputes := db.disputes.insert d }
  | denyDispute (did : ℕ) (d : Dispute) (f : Dispute → Dispute)
      (get : db.disputes.get? did = some d) (status : d.status = .open_) (same : d.SameCase (f d))
      (denied : (f d).status = .resolvedDenied) :
      Transition now op db { db with disputes := db.disputes.modify did f }

/-! ## Every operation is a transition -/

section Inversion

variable {env : Env} {op : Op} {db db' : Db} {r : Outcome}

variable {owner project participant challenge admin did : ℕ} {confirmed : Option ℕ}
  {users users' : Table User} {note action resolution resolution' : String} {c : Challenge}
  {p : Project} {args : Review}

/-- The fee is credited to one recipient, or there is none. -/
theorem moved_of_creditPlatformFee {fee : ℤ} {recipient : ℕ} (hfee : 0 ≤ fee)
    (h : creditPlatformFee confirmed fee users = .ok (recipient, users')) :
    Moved users users' [(recipient, fee)] := by
  unfold creditPlatformFee at h
  split at h
  · simp only [eq_ok] at h
    obtain ⟨_, -, -, _, hu, rfl, rfl⟩ := h
    exact moved_of_updateWalletQuotaByDelta hu
  · simp only [pure_eq_ok, Prod.mk.injEq] at h
    obtain ⟨rfl, rfl⟩ := h
    have hz : fee = 0 := by omega
    exact ⟨by simp [hz], fun j => by simp [hz]⟩

theorem publishOpenSourceBountyTx_transition
    (h : publishOpenSourceBountyTx env confirmed owner project db = .ok (r, db')) :
    Transition env.now op db db' := by
  simp only [publishOpenSourceBountyTx, eq_ok, ownedProject_eq_ok, Prod.exists] at h
  obtain ⟨p, ⟨hp, rfl⟩, hs, charge, hch, _, hdeb, recipient, users₂, hcr, -, rfl⟩ := h
  obtain ⟨-, -, -, -, hfee⟩ := calculateOpenSourceBountyPublicationCharge_spec hch
  have hmvd := (moved_of_updateWalletQuotaByDelta hdeb).trans (moved_of_creditPlatformFee hfee hcr)
  exact .publish project p _ env charge recipient users₂ hp hs hch ⟨rfl, rfl, rfl, rfl, rfl⟩ hmvd

/-- What is left in the escrow goes to the owner. -/
theorem moved_of_creditRefund {refund : ℤ} (h : creditRefund owner refund users = .ok users') :
    Moved users users' [(owner, max refund 0)] := by
  unfold creditRefund at h
  split at h
  · rename_i hpos
    rw [max_eq_left hpos.le]
    exact moved_of_updateWalletQuotaByDelta h
  · rename_i hneg
    obtain rfl := pure_eq_ok.1 h
    rw [max_eq_right (not_lt.1 hneg)]
    exact ⟨by simp, fun j => by simp⟩

theorem closeOpenSourceBountyTx_transition
    (h : closeOpenSourceBountyTx env owner project db = .ok (r, db')) :
    Transition env.now (.close owner project) db db' := by
  simp only [closeOpenSourceBountyTx, eq_ok, ownedProject_eq_ok, any_iff] at h
  obtain ⟨p, ⟨hp, rfl⟩, hs, hidle, hop, happ, users, hcr, -, rfl⟩ := h
  refine .close project p _ env users rfl hp hs (fun j c hc hcp => ⟨?_, ?_, ?_⟩) ?_
    ⟨rfl, rfl, rfl, rfl, rfl⟩ (moved_of_creditRefund hcr)
  · exact fun hst => hidle ⟨j, c, hc, hcp, .inl hst⟩
  · exact fun hst => hidle ⟨j, c, hc, hcp, .inr hst⟩
  · exact fun ha => happ ⟨j, c, hc, hcp, ha⟩
  · exact fun j d hd hdp hst => hop ⟨j, d, hd, hdp, hst⟩

theorem submitOpenSourceBountyChallenge_transition {issue pull : String}
    (h : submitOpenSourceBountyChallenge env participant project issue pull note db =
      .ok (r, db')) : Transition env.now (.submit participant project issue pull note) db db' := by
  simp only [submitOpenSourceBountyChallenge, eq_ok, Prod.exists, any_iff] at h
  obtain ⟨-, p, hp, id, c, hl, _, -, _, hurl, -, hfr, -, rfl⟩ := h
  obtain ⟨hc, rfl, rfl, hs⟩ := last?_eq_some hl
  refine .submit id c _ _ issue pull note rfl rfl hc hl ⟨rfl, rfl, rfl⟩ hs rfl ⟨p, hp, hurl⟩ ?_
  rcases hfr with hemp | hn
  · exact .inl hemp
  · refine .inr fun j c' hc' hj hcp hpr => ⟨fun hst => ?_, fun hst => ?_⟩
    · exact hn ⟨j, c', hc', hcp, hj, hpr, .inl hst⟩
    · exact hn ⟨j, c', hc', hcp, hj, hpr, .inr hst⟩

/-- A payout is created only under a key no row has. -/
theorem createPayout_eq_ok {ledgers ledgers' : Table Ledger} {entry : Ledger} {id : ℕ}
    (hk : entry.rewardPayoutKey = some id) (h : createPayout ledgers entry = .ok ledgers') :
    ledgers' = ledgers.insert entry ∧
      ∀ j l, ledgers.get? j = some l → l.rewardPayoutKey ≠ some id := by
  simp only [createPayout, eq_ok, any_iff] at h
  obtain ⟨hn, rfl⟩ := h
  refine ⟨rfl, fun j l hl hlk => hn ⟨j, l, hl, ?_, ?_⟩⟩
  · rw [hlk]
    rfl
  · rw [hlk, hk]

theorem approveChallenge_transition (hc : db.challenges.get? challenge = some c)
    (hp : db.projects.get? c.projectId = some p) (hs : c.status = .submitted)
    (h : approveChallenge env owner challenge c p args db = .ok (r, db')) :
    Transition env.now op db db' := by
  simp only [approveChallenge, eq_ok] at h
  obtain ⟨-, ⟨hpos, hcov⟩, users, hcr, _, hpay, -, rfl⟩ := h
  obtain ⟨rfl, hunp⟩ := createPayout_eq_ok rfl hpay
  exact .pay challenge c p _ _ users _ _ hc hp (.inl hs) ⟨⟨rfl, rfl, rfl⟩, rfl⟩ rfl hpos hcov
    ⟨.inl rfl, rfl, rfl, rfl, rfl, rfl⟩ hunp (moved_of_updateWalletQuotaByDelta hcr)
    fun _ _ _ hq => ⟨hq.1, hq.2, ⟨rfl, rfl, rfl⟩, rfl⟩

theorem payDispute_transition {d : Dispute}
    (hact : parseAction (Go.trimSpace action) = some .pay) (hd : db.disputes.get? did = some d)
    (hop : d.status = .open_) (hc : db.challenges.get? d.challengeId = some c)
    (hp : db.projects.get? d.projectId = some p) (hpj : c.projectId = d.projectId)
    (h : payDispute env admin did resolution' d p c db = .ok (r, db')) :
    Transition env.now (.resolveDispute admin did action resolution) db db' := by
  simp only [payDispute, eq_ok] at h
  obtain ⟨⟨hope, -⟩, hs, ⟨-, hpull⟩, ⟨hpos, hrew, hcov⟩, users, hcr, _, hpayo, -, rfl⟩ := h
  obtain ⟨rfl, hunp⟩ := createPayout_eq_ok rfl hpayo
  have hpay : Payable db (.resolveDispute admin did action resolution) d.challengeId c := by
    rcases hs with hs | hs
    · exact .inl hs
    · exact .inr ⟨hs, hpull, admin, did, action, resolution, d, rfl, hact, hd, rfl, hop, hope⟩
  rw [← hrew] at hpos hcov hcr ⊢
  rw [← hpj] at hp ⊢
  refine .pay d.challengeId c p _ _ users _ _ hc hp hpay ⟨⟨rfl, rfl, rfl⟩, rfl⟩ rfl hpos hcov
    ⟨.inr rfl, rfl, rfl, rfl, rfl, rfl⟩ hunp (moved_of_updateWalletQuotaByDelta hcr) ?_
  rintro j d' hd' rfl
  obtain rfl := mem_unique hd hd'
  exact ⟨rfl, hop, ⟨rfl, rfl, rfl⟩, rfl⟩

theorem resolveOpenSourceBountyDisputeTx_transition {action' : Action}
    (hact : parseAction (Go.trimSpace action) = some action')
    (h : resolveOpenSourceBountyDisputeTx env admin did action' resolution' db = .ok (r, db')) :
    Transition env.now (.resolveDispute admin did action resolution) db db' := by
  simp only [resolveOpenSourceBountyDisputeTx, eq_ok] at h
  obtain ⟨_, -, d, hd, p, hp, c, hc, h⟩ := h
  split at h
  · rename_i hop
    simp only [settleDispute, eq_ok] at h
    obtain ⟨⟨hpj, -⟩, -, h⟩ := h
    cases action' with
    | pay => exact payDispute_transition hact hd hop hc hp hpj h
    | deny =>
      simp only [denyDispute, pure_eq_ok, Prod.mk.injEq] at h
      obtain ⟨-, rfl⟩ := h
      exact .denyDispute did d _ hd hop ⟨rfl, rfl, rfl⟩ rfl
  · simp only [eq_ok] at h
    obtain ⟨-, -, rfl⟩ := h
    exact .same

/-- **Every committed operation is a transition.** -/
theorem run_transition (h : op.run env db = .ok (r, db')) : Transition env.now op db db' := by
  obtain ⟨tx, hpp, h⟩ := bind_eq_ok.1 h
  cases op
  -- What is checked before the transaction says nothing about it, but for the action of a verdict.
  case' review | rate | tip => obtain ⟨_, -, hpp⟩ := bind_eq_ok.1 hpp
  case' openDispute => obtain ⟨⟨_, _⟩, -, hpp⟩ := bind_eq_ok.1 hpp
  case' resolveDispute => obtain ⟨⟨_, _⟩, hche, hpp⟩ := bind_eq_ok.1 hpp
  all_goals obtain rfl := pure_eq_ok.1 hpp
  case createDraft =>
    simp only [createOpenSourceBountyDraft, eq_ok] at h
    obtain ⟨-, input', hinp, -, rfl⟩ := h
    exact .newDraft _ rfl rfl (normalizeBountyDraft_slots hinp)
  case updateDraft =>
    simp only [updateOpenSourceBountyDraft, eq_ok, ownedProject_eq_ok] at h
    obtain ⟨_, hinp, p, ⟨hp, -⟩, hs, -, rfl⟩ := h
    exact .edit _ p _ hp ⟨rfl, rfl, rfl, .inl rfl, fun hd => absurd hs hd,
      fun _ => normalizeBountyDraft_slots hinp⟩
  case updateContent =>
    simp only [updateOpenSourceBountyContent, eq_ok] at h
    obtain ⟨-, _, -, p, hp, -, -, -, rfl⟩ := h
    exact .edit _ p _ hp ⟨rfl, rfl, rfl, .inl rfl, fun _ => rfl, fun hpos => hpos⟩
  case deleteDraft =>
    simp only [deleteOpenSourceBountyDraftTx, eq_ok, ownedProject_eq_ok] at h
    obtain ⟨p, ⟨hp, -⟩, hs, -, rfl⟩ := h
    exact .deleteDraft _ p hp hs
  case publish => exact publishOpenSourceBountyTx_transition h
  case setPaused =>
    simp only [setOpenSourceBountyPaused, eq_ok, ownedProject_eq_ok] at h
    obtain ⟨p, ⟨hp, -⟩, hs, -, rfl⟩ := h
    refine .edit _ p _ hp ⟨rfl, rfl, rfl, .inr ?_, fun _ => rfl, fun hpos => hpos⟩
    rw [hs]
    cases ‹Bool›
    · exact ⟨.inr rfl, .inl rfl⟩
    · exact ⟨.inl rfl, .inr rfl⟩
  case close => exact closeOpenSourceBountyTx_transition h
  case setArchived =>
    simp only [setOpenSourceBountyArchived, eq_ok, ownedProject_eq_ok] at h
    obtain ⟨-, p, ⟨hp, -⟩, -, -, rfl⟩ := h
    refine .edit _ p _ hp ?_
    split <;> exact ⟨rfl, rfl, rfl, .inl rfl, fun _ => rfl, fun hpos => hpos⟩
  case accept =>
    simp only [acceptOpenSourceBounty, eq_ok] at h
    obtain ⟨_, -, p, hp, hs, hoth, -, -, hfr, -, rfl⟩ := h
    exact .accept p _ _ rfl hp hs hoth rfl rfl rfl hfr
  case submit => exact submitOpenSourceBountyChallenge_transition h
  case withdraw =>
    simp only [withdrawOpenSourceBountyChallengeTx, eq_ok, filter_eq_some_iff] at h
    obtain ⟨c, ⟨hc, -⟩, hs, hop, -, rfl⟩ := h
    exact .release _ c _ hc ⟨⟨rfl, rfl, rfl⟩, rfl⟩ hs (.inl rfl) hop
  case cancel =>
    simp only [cancelOpenSourceBountyChallengeTx, eq_ok] at h
    obtain ⟨c, hc, _, -, -, hs, hop, -, rfl⟩ := h
    exact .release _ c _ hc ⟨⟨rfl, rfl, rfl⟩, rfl⟩ (.inl hs) (.inr rfl) hop
  case review =>
    simp only [reviewOpenSourceBountyChallengeTx, eq_ok, ownedProject_eq_ok] at h
    obtain ⟨c, hc, p, ⟨hp, -⟩, hs, h⟩ := h
    split at h
    · exact approveChallenge_transition hc hp hs h
    · simp only [rejectChallenge, pure_eq_ok, Prod.mk.injEq] at h
      obtain ⟨-, rfl⟩ := h
      exact .reject _ c _ hc ⟨⟨rfl, rfl, rfl⟩, rfl⟩ hs rfl rfl
  case rate =>
    simp only [rateOpenSourceBountyOwnerTx, eq_ok, filter_eq_some_iff] at h
    obtain ⟨c, ⟨hc, -⟩, -, -, -, rfl⟩ := h
    exact .remark _ c _ hc ⟨⟨⟨rfl, rfl, rfl⟩, rfl⟩, rfl, rfl⟩
  case tip =>
    obtain ⟨⟨_, _⟩, htip, h⟩ := bind_eq_ok.1 h
    obtain ⟨⟩ := pure_eq_ok.1 h
    simp only [tipOpenSourceBountyChallengeTx, eq_ok, ownedProject_eq_ok] at htip
    obtain ⟨c, hc, p, ⟨hp, hown⟩, -, -, _, hdeb, users₂, hcr, -, rfl⟩ := htip
    exact .tip _ c _ _ users₂ hc ⟨⟨⟨rfl, rfl, rfl⟩, rfl⟩, rfl, rfl⟩ ⟨p, hp, hown⟩
      ⟨rfl, rfl, rfl, rfl⟩
      ((moved_of_updateWalletQuotaByDelta hdeb).trans (moved_of_updateWalletQuotaByDelta hcr))
  case openDispute =>
    simp only [openOpenSourceBountyDisputeTx, eq_ok, not_or, not_and, not_le] at h
    obtain ⟨c, hc, p, hp, hlv, -, hact, hwin, -, hfst, -, -, rfl⟩ := h
    refine .openDispute c p _ hc hp rfl rfl hlv hact hwin fun j d hd hdc hdu => ?_
    exact hfst (any_iff.2 ⟨j, d, hd, hdc, hdu⟩)
  case resolveDispute =>
    simp only [resolveOpenSourceBountyDisputeCheck, eq_ok] at hche
    obtain ⟨_, hact, -, rfl, -⟩ := hche
    exact resolveOpenSourceBountyDisputeTx_transition hact h

end Inversion

/-- **Every step is a transition**, the trivial one when the operation fails. -/
theorem step_transition (e : Event) (db : Db) : Transition e.time e.op db (step e db) := by
  rcases h : e.op.run e.env db with _ | ⟨r, _⟩
  · rw [step_of_error h]
    exact .same
  · rw [step, h, commit_ok]
    exact run_transition h

end LmmApi.Bounty
