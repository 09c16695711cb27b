import LmmApi.Bounty.Transition

/-!
# Rows persist and stay linked

What every transition keeps of the rows of the store: a published project keeps its terms, a
challenge its deal and an approved one its status, a dispute its case and a resolved one its
outcome, a ledger row everything. From these, `Linked` holds in every reachable state: each
challenge, dispute and ledger row belongs to a published project, and a challenge's reward is the
net reward of its project.
-/

namespace LmmApi.Bounty

open List Option Table

variable {now : ℤ} {op : Op} {db db' : Db}

/-! ## Persistence -/

/-- The terms of a published project. -/
structure Project.SameTerms (p p' : Project) : Prop where
  published : p'.status ≠ .draft
  owner : p'.ownerUserId = p.ownerUserId
  net : p'.netRewardQuota = p.netRewardQuota
  slots : p'.rewardSlots = p.rewardSlots

variable {id : ℕ} {p : Project} {c : Challenge}

theorem Project.SameTerms.refl (h : p.status ≠ .draft) : p.SameTerms p := ⟨h, rfl, rfl, rfl⟩

theorem ProjectStatus.Active.ne_draft {s : ProjectStatus} (h : s.Active) : s ≠ .draft := by
  rintro rfl
  simp [ProjectStatus.Active] at h

theorem Project.Edit.sameTerms {p q : Project} (h : p.Edit q) (hp : p.status ≠ .draft) :
    p.SameTerms q := by
  refine ⟨?_, h.owner, h.net, h.slots hp⟩
  rcases h.status with hs | ⟨-, hs⟩
  · rwa [hs]
  · exact hs.ne_draft

theorem Project.payReward_sameTerms (now reward : ℤ) (hp : p.status ≠ .draft) :
    p.SameTerms (p.payReward now reward) := by
  refine ⟨?_, rfl, rfl, rfl⟩
  simp only [Project.payReward]
  split
  · simp
  · exact hp

/-- A published project stays, on the same terms. -/
theorem Transition.project_persists (h : Transition now op db db')
    (hp : db.projects.get? id = some p) (hs : p.status ≠ .draft) :
    ∃ p', db'.projects.get? id = some p' ∧ p.SameTerms p' := by
  have hsa : p.SameTerms p := .refl hs
  -- A transition that updates the project `j`, of which `q` is the row, does so on the same terms.
  have modified {j q} (f : Project → Project) (hq : db.projects.get? j = some q)
      (hf : q.status ≠ .draft → q.SameTerms (f q)) :
      ∃ p', (db.projects.modify j f).get? id = some p' ∧ p.SameTerms p' := by
    refine exists_get?_modify f hp (fun _ => hsa) fun hj => ?_
    obtain rfl := mem_unique hq (hj ▸ hp)
    exact hf hs
  cases h with
  | newDraft => exact ⟨p, get?_insert_of_get? hp, hsa⟩
  | edit _ _ f get edit => exact modified f get edit.sameTerms
  | deleteDraft _ q get status =>
    refine ⟨p, get?_eraseWhere_eq_some.2 ⟨hp, fun hj => hs ?_⟩, hsa⟩
    obtain rfl := mem_unique get (hj ▸ hp)
    exact status
  | publish _ _ f _ _ _ _ get status => exact modified f get fun hq => absurd status hq
  | close _ _ f _ _ _ get _ _ _ closed =>
    refine modified f get fun _ => ⟨?_, closed.2.2.2.2, closed.2.2.1, closed.2.2.2.1⟩
    rw [closed.1]
    simp
  | pay _ c _ _ _ _ _ _ _ getProject =>
    exact modified _ getProject (Project.payReward_sameTerms now c.rewardQuota)
  | _ => exact ⟨p, hp, hsa⟩

theorem Challenge.SameDeal.refl (c : Challenge) : c.SameDeal c := ⟨rfl, rfl, rfl⟩

theorem Dispute.SameCase.refl (d : Dispute) : d.SameCase d := ⟨rfl, rfl, rfl⟩

/-- A dispute stays, with its case, and a resolved one with its outcome. -/
theorem Transition.dispute_persists (h : Transition now op db db') {d : Dispute}
    (hd : db.disputes.get? id = some d) : ∃ d', db'.disputes.get? id = some d' ∧ d.SameCase d' ∧
      (d.status ≠ .open_ → d'.status = d.status) := by
  have hs : d.SameCase d ∧ (d.status ≠ .open_ → d.status = d.status) := ⟨.refl d, fun _ => rfl⟩
  cases h with
  | openDispute => exact ⟨d, get?_insert_of_get? hd, hs⟩
  | denyDispute _ b f get status same =>
    refine exists_get?_modify f hd (fun _ => hs) fun hj => ?_
    obtain rfl := mem_unique get (hj ▸ hd)
    exact ⟨same, fun hb => absurd status hb⟩
  | pay _ _ _ _ _ _ q g get _ _ _ _ _ _ _ _ _ settles =>
    rw [get?_modifyWhere, hd]
    refine ⟨if q id d then g d else d, rfl, ?_⟩
    split
    · rename_i hq
      obtain ⟨-, hop, hc, -⟩ := settles _ _ hd hq
      exact ⟨hc, fun hb => absurd hop hb⟩
    · exact hs
  | _ => exact ⟨d, hd, hs⟩

/-! ## Origins -/

/-- A challenge that the transition to `db'` created, under the key `id`. -/
structure NewChallenge (now : ℤ) (op : Op) (db db' : Db) (id : ℕ) (c : Challenge) (p : Project) :
    Prop where
  isOp : ∃ handle, op = .accept c.participantUserId c.projectId handle
  key : id = db.challenges.next
  get : db.projects.get? c.projectId = some p
  published : p.status = .published
  status : c.status = .accepted
  noWork : c.pullRequestUrl = ""
  reward : c.rewardQuota = challengeReward p
  free : db.challenges.count (fun i c' => c'.projectId = c.projectId ∧ occupiesSlot db now i c') <
    p.rewardSlots
  disputes : db'.disputes = db.disputes
  projects : db'.projects = db.projects

/-- The ways an old challenge comes out of a transition. -/
inductive ChallengeMove (now : ℤ) (op : Op) (db : Db) (id : ℕ) (c c' : Challenge) : Prop
  | kept (remark : c.Remark c')
  | submitted (participant : ℕ) (issue pull note : String)
      (isOp : op = .submit participant c.projectId issue pull note)
      (last : db.challenges.last? (fun _ b => b.projectId = c.projectId ∧
        b.participantUserId = participant ∧ b.status = .accepted) = some (id, c))
      (same : c.SameDeal c') (before : c.status = .accepted) (after : c'.status = .submitted)
      (evidence : ∃ p, db.projects.get? c.projectId = some p ∧
        normalizeGithubEvidence pull p.repositoryUrl "pull" = .ok c'.pullRequestUrl)
      (fresh : c'.pullRequestUrl = "" ∨ ∀ j b, db.challenges.get? j = some b → j ≠ id →
        b.projectId = c.projectId → b.pullRequestUrl = c'.pullRequestUrl →
        b.status ≠ .submitted ∧ b.status ≠ .approved)
  | released (same : c.SameWork c') (before : c.status = .accepted ∨ c.status = .submitted)
      (after : c'.status = .withdrawn ∨ c'.status = .cancelled)
  | rejected (same : c.SameWork c') (before : c.status = .submitted)
      (after : c'.status = .rejected) (rejectedAt : c'.rejectedAt = now)
  | paid (same : c.SameWork c') (before : Payable db op id c) (after : c'.status = .approved)

theorem Challenge.Remark.refl (c : Challenge) : c.Remark c := ⟨⟨.refl c, rfl⟩, rfl, rfl⟩

theorem ChallengeMove.sameDeal {c' : Challenge} (h : ChallengeMove now op db id c c') :
    c.SameDeal c' := by
  cases h with
  | kept remark => exact remark.toSameDeal
  | submitted _ _ _ _ _ _ same => exact same
  | released same | rejected same | paid same => exact same.toSameDeal

theorem ChallengeMove.approved {c' : Challenge} (h : ChallengeMove now op db id c c')
    (hst : c.status = .approved) : c'.status = .approved := by
  cases h with
  | kept remark => exact remark.status.trans hst
  | submitted _ _ _ _ _ _ _ before | released _ before | rejected _ before => simp [hst] at before
  | paid _ _ after => exact after

section

variable (h : Transition now op db db')
include h

/-- What a transition does to the table of challenges. -/
theorem Transition.challenges_cases :
    db'.challenges = db.challenges ∨ (∃ c p, db'.challenges = db.challenges.insert c ∧
        NewChallenge now op db db' db.challenges.next c p) ∨
      ∃ j c f, db.challenges.get? j = some c ∧ db'.challenges = db.challenges.modify j f ∧
        ChallengeMove now op db j c (f c) := by
  cases h with
  | accept p c handle isOp get published _ status noWork reward free =>
    exact .inr (.inl ⟨c, p, rfl, ⟨handle, isOp⟩, rfl, get, published, status, noWork, reward, free,
      rfl, rfl⟩)
  | submit j c f _ _ _ _ isOp _ get last same status after evidence fresh =>
    exact .inr (.inr ⟨j, c, f, get, rfl,
      .submitted _ _ _ _ isOp last same status after evidence fresh⟩)
  | release j c f get same status after =>
    exact .inr (.inr ⟨j, c, f, get, rfl, .released same status after⟩)
  | reject j c f get same status after rejectedAt =>
    exact .inr (.inr ⟨j, c, f, get, rfl, .rejected same status after rejectedAt⟩)
  | remark j c f get remark | tip j c f _ _ get remark =>
    exact .inr (.inr ⟨j, c, f, get, rfl, .kept remark⟩)
  | pay j c _ f _ _ _ _ get _ payable same after =>
    exact .inr (.inr ⟨j, c, f, get, rfl, .paid same payable after⟩)
  | _ => exact .inl rfl

/-- A challenge stays, with its deal, and an approved one stays approved. -/
theorem Transition.challenge_persists
    (hc : db.challenges.get? id = some c) : ∃ c', db'.challenges.get? id = some c' ∧ c.SameDeal c' ∧
      (c.status = .approved → c'.status = .approved) := by
  obtain heq | ⟨_, _, heq, -⟩ | ⟨j, b, f, hb, heq, hmv⟩ := h.challenges_cases <;> rw [heq]
  · exact ⟨c, hc, .refl c, fun hs => hs⟩
  · exact ⟨c, get?_insert_of_get? hc, .refl c, fun hs => hs⟩
  · refine exists_get?_modify f hc (fun _ => ⟨.refl c, fun hs => hs⟩) fun hj => ?_
    obtain rfl := mem_unique hb (hj ▸ hc)
    exact ⟨hmv.sameDeal, hmv.approved⟩

/-- A challenge after a transition is an old one with its deal, or a new one. -/
theorem Transition.challenge_origin {c' : Challenge} (hc' : db'.challenges.get? id = some c') :
    (∃ c, db.challenges.get? id = some c ∧ c.SameDeal c') ∨
      ∃ p, NewChallenge now op db db' id c' p := by
  obtain heq | ⟨c, p, heq, hnew⟩ | ⟨j, c, f, hc, heq, hmv⟩ := h.challenges_cases <;> rw [heq] at hc'
  · exact .inl ⟨c', hc', .refl c'⟩
  · obtain ⟨rfl, rfl⟩ | hold := get?_insert_cases hc'
    · exact .inr ⟨p, hnew⟩
    · exact .inl ⟨c', hold, .refl c'⟩
  · obtain ⟨rfl, rfl⟩ | ⟨-, hold⟩ := get?_modify_cases hc hc'
    · exact .inl ⟨c, hc, hmv.sameDeal⟩
    · exact .inl ⟨c', hold, .refl c'⟩

/-- **What a transition does to a challenge.** -/
theorem Transition.challenge_move {c c' : Challenge}
    (hc : db.challenges.get? id = some c) (hc' : db'.challenges.get? id = some c') :
    ChallengeMove now op db id c c' := by
  have old (hold : db.challenges.get? id = some c') : ChallengeMove now op db id c c' := by
    obtain rfl := mem_unique hc hold
    exact .kept (.refl c)
  obtain heq | ⟨_, _, heq, -⟩ | ⟨j, b, f, hb, heq, hmv⟩ := h.challenges_cases <;> rw [heq] at hc'
  · exact old hc'
  · obtain ⟨rfl, -⟩ | hold := get?_insert_cases hc'
    · simp at hc
    · exact old hold
  · obtain ⟨rfl, rfl⟩ | ⟨-, hold⟩ := get?_modify_cases hb hc'
    · obtain rfl := mem_unique hb hc
      exact hmv
    · exact old hold

/-- A dispute that a transition opened, on the challenge `c`. -/
structure NewDispute (now : ℤ) (db db' : Db) (d : Dispute) (c : Challenge) : Prop where
  get : db.challenges.get? d.challengeId = some c
  project : d.projectId = c.projectId
  active : c.status ≠ .withdrawn ∧ c.status ≠ .cancelled
  inWindow : c.status = .rejected → now - appealWindowSeconds < c.rejectedAt
  first : ∀ j d', db.disputes.get? j = some d' → d'.challengeId = d.challengeId →
    d'.openedByUserId ≠ d.openedByUserId
  challenges : db'.challenges = db.challenges

/-- A dispute after a transition is an old one with its case, which is not opened again, or a new
one. -/
theorem Transition.dispute_origin {d' : Dispute}
    (hd' : db'.disputes.get? id = some d') : (∃ d, db.disputes.get? id = some d ∧ d.SameCase d' ∧
        (d'.status = .open_ → d.status = .open_)) ∨ ∃ c, NewDispute now db db' d' c := by
  have old : db.disputes.get? id = some d' → ∃ d, db.disputes.get? id = some d ∧ d.SameCase d' ∧
      (d'.status = .open_ → d.status = .open_) := fun hold => ⟨d', hold, .refl d', fun hs => hs⟩
  cases h with
  | openDispute c _ _ get _ project _ _ active inWindow first =>
    rcases get?_insert_cases hd' with ⟨-, rfl⟩ | hold
    · exact .inr ⟨c, get, project, active, inWindow, first, rfl⟩
    · exact .inl (old hold)
  | denyDispute _ b _ get status same =>
    rcases get?_modify_cases get hd' with ⟨rfl, rfl⟩ | ⟨-, hold⟩
    · exact .inl ⟨b, get, same, fun _ => status⟩
    · exact .inl (old hold)
  | pay _ _ _ _ _ _ _ _ get _ _ _ _ _ _ _ _ _ settles =>
    rw [get?_modifyWhere, map_eq_some_iff] at hd'
    obtain ⟨d, hd, rfl⟩ := hd'
    refine .inl ⟨d, hd, ?_⟩
    split
    · rename_i hq
      obtain ⟨-, hop, hc, -⟩ := settles _ _ hd hq
      exact ⟨hc, fun _ => hop⟩
    · exact ⟨.refl d, fun hs => hs⟩
  | _ => exact .inl (old hd')

/-- A ledger row that a transition to `db'` wrote. -/
inductive NewLedger (op : Op) (db db' : Db) (l : Ledger) : Prop
  | booked (p : Project) (get : db'.projects.get? l.projectId = some p) (status : p.status ≠ .draft)
      (kind : l.kind = .escrowFund ∨ l.kind = .platformFee ∨
        l.kind = .escrowRefund ∧ p.status = .closed)
  | tip (j : ℕ) (c : Challenge) (get : db.challenges.get? j = some c)
      (project : c.projectId = l.projectId) (kind : l.kind = .tipTransfer)
  | payout (c : Challenge) (get : db.challenges.get? l.challengeId = some c)
      (payable : Payable db op l.challengeId c) (isPayout : PayoutEntry l.challengeId c l)

/-- A ledger row after a transition is an old one or a new one. -/
theorem Transition.ledger_origin {l : Ledger} (hl : db'.ledgers.get? id = some l) :
    db.ledgers.get? id = some l ∨ NewLedger op db db' l := by
  have modified {j : ℕ} {p : Project} (f : Project → Project) (hp : db.projects.get? j = some p) :
      (db.projects.modify j f).get? j = some (f p) := by
    rw [get?_modify_self, hp]
    rfl
  cases h with
  | publish _ p f _ _ _ _ get _ _ published =>
    rcases get?_foldl_insert_cases hl with hold | ⟨-, hm⟩
    · exact .inl hold
    · have hdra : (f p).status ≠ .draft := by simp [published.1]
      rcases mem_cons.1 hm with rfl | hm
      · exact .inr (.booked (f p) (modified f get) hdra (.inl rfl))
      · split at hm
        · obtain rfl := mem_singleton.1 hm
          exact .inr (.booked (f p) (modified f get) hdra (.inr (.inl rfl)))
        · simp at hm
  | close _ p f _ _ _ get _ _ _ closed =>
    rcases get?_foldl_insert_cases hl with hold | ⟨-, hm⟩
    · exact .inl hold
    · unfold refundEntries at hm
      split at hm
      · obtain rfl := mem_singleton.1 hm
        exact .inr (.booked (f p) (modified f get) (by simp [closed.1])
          (.inr (.inr ⟨rfl, closed.1⟩)))
      · simp at hm
  | tip j c _ _ _ get _ _ isTip =>
    rcases get?_insert_cases hl with ⟨-, rfl⟩ | hold
    · exact .inr (.tip j c get isTip.2.2.1.symm isTip.1)
    · exact .inl hold
  | pay _ c _ _ _ _ _ _ get _ payable _ _ _ _ isPayout =>
    rcases get?_insert_cases hl with ⟨-, rfl⟩ | hold
    · obtain rfl := isPayout.challenge
      exact .inr (.payout c get payable isPayout)
    · exact .inl hold
  | _ => exact .inl hl

end

/-! ## Links -/

/-- The rows of the store belong together. -/
structure Linked (db : Db) : Prop where
  terms : ∀ id p, db.projects.get? id = some p → p.status ≠ .draft → 0 < p.netRewardQuota
  challenge : ∀ id c, db.challenges.get? id = some c →
    ∃ p, db.projects.get? c.projectId = some p ∧ p.status ≠ .draft ∧
      c.rewardQuota = p.netRewardQuota
  dispute : ∀ id d, db.disputes.get? id = some d →
    ∃ c, db.challenges.get? d.challengeId = some c ∧ d.projectId = c.projectId
  ledger : ∀ id l, db.ledgers.get? id = some l →
    ∃ p, db.projects.get? l.projectId = some p ∧ p.status ≠ .draft

section

variable (hl : Linked db) (hc : db.challenges.get? id = some c)
  (hp : db.projects.get? c.projectId = some p)
include hl hc hp

/-- The project of a challenge is published. -/
theorem Linked.project_ne_draft : p.status ≠ .draft := by
  obtain ⟨q, hq, hs, -⟩ := hl.challenge id c hc
  obtain rfl := mem_unique hq hp
  exact hs

/-- The reward of a challenge is the net reward of its project. -/
theorem Linked.reward : c.rewardQuota = p.netRewardQuota := by
  obtain ⟨q, hq, -, hr⟩ := hl.challenge id c hc
  obtain rfl := mem_unique hq hp
  exact hr

omit hc hp in
/-- No challenge, and no ledger row, belongs to a draft or to no project. -/
theorem Linked.no_challenge_of_draft {pid : ℕ}
    (hp : ∀ p, db.projects.get? pid = some p → p.status = .draft)
    (hc : db.challenges.get? id = some c) : c.projectId ≠ pid := by
  rintro rfl
  obtain ⟨p, hg, hs, -⟩ := hl.challenge id c hc
  exact hs (hp p hg)

end

theorem linked_empty (users : Table User) : Linked (.empty users) where
  terms _ _ h := nomatch h
  challenge _ _ h := nomatch h
  dispute _ _ h := nomatch h
  ledger _ _ h := nomatch h

/-- A published project after a transition was one on the same terms, or is the draft that was
published, with a positive reward. -/
theorem Transition.project_origin (h : Transition now op db db') (hl : Linked db)
    {p' : Project} (hp' : db'.projects.get? id = some p') (hs' : p'.status ≠ .draft) :
    (∃ p, db.projects.get? id = some p ∧ p.status ≠ .draft ∧ p.SameTerms p') ∨
      0 < p'.netRewardQuota := by
  have old : db.projects.get? id = some p' →
      (∃ p, db.projects.get? id = some p ∧ p.status ≠ .draft ∧ p.SameTerms p') ∨
        0 < p'.netRewardQuota := fun hold => .inl ⟨p', hold, hs', .refl hs'⟩
  cases h with
  | newDraft _ status =>
    rcases get?_insert_cases hp' with ⟨-, rfl⟩ | hold
    · exact absurd status hs'
    · exact old hold
  | edit _ p _ get edit =>
    rcases get?_modify_cases get hp' with ⟨rfl, rfl⟩ | ⟨-, hold⟩
    · have hs : p.status ≠ .draft := by
        rcases edit.status with hs | ⟨hs, -⟩
        · rwa [hs] at hs'
        · exact hs.ne_draft
      exact .inl ⟨p, get, hs, edit.sameTerms hs⟩
    · exact old hold
  | deleteDraft => exact old (get?_eraseWhere_eq_some.1 hp').1
  | publish _ _ _ _ _ _ _ get _ charged published =>
    rcases get?_modify_cases get hp' with ⟨rfl, rfl⟩ | ⟨-, hold⟩
    · obtain ⟨-, -, hnet, -⟩ := calculateOpenSourceBountyPublicationCharge_spec charged
      exact .inr (published.2.2.1 ▸ hnet)
    · exact old hold
  | close _ p _ _ _ _ get status _ _ closed =>
    rcases get?_modify_cases get hp' with ⟨rfl, rfl⟩ | ⟨-, hold⟩
    · exact .inl ⟨p, get, status.ne_draft, hs', closed.2.2.2.2, closed.2.2.1, closed.2.2.2.1⟩
    · exact old hold
  | pay _ _ p _ _ _ _ _ get getProject =>
    rcases get?_modify_cases getProject hp' with ⟨rfl, rfl⟩ | ⟨-, hold⟩
    · exact .inl ⟨p, getProject, hl.project_ne_draft get getProject, hs', rfl, rfl, rfl⟩
    · exact old hold
  | _ => exact old hp'

/-- Transitions keep the rows linked. -/
theorem Transition.linked (h : Transition now op db db') (hl : Linked db) : Linked db' where
  terms id p' hp' hs' := by
    rcases h.project_origin hl hp' hs' with ⟨p, hp, hs, hter⟩ | hpos
    · rw [hter.net]
      exact hl.terms id p hp hs
    · exact hpos
  challenge id c' hc' := by
    rcases h.challenge_origin hc' with ⟨c, hc, hdeal⟩ | ⟨p, hnew⟩
    · obtain ⟨p, hp, hs, hrew⟩ := hl.challenge id c hc
      obtain ⟨p', hp', hter⟩ := h.project_persists hp hs
      refine ⟨p', hdeal.project ▸ hp', hter.published, ?_⟩
      rw [hdeal.reward, hrew, hter.net]
    · have hdra : p.status ≠ .draft := by simp [hnew.published]
      have hpos := hl.terms _ p hnew.get hdra
      refine ⟨p, hnew.projects ▸ hnew.get, hdra, ?_⟩
      rw [hnew.reward, challengeReward, if_neg (not_le.2 hpos)]
  dispute id d' hd' := by
    rcases h.dispute_origin hd' with ⟨d, hd, hca, -⟩ | ⟨c, hnew⟩
    · obtain ⟨c, hc, hpj⟩ := hl.dispute id d hd
      obtain ⟨c', hc', hdeal, -⟩ := h.challenge_persists hc
      refine ⟨c', hca.challenge ▸ hc', ?_⟩
      rw [hca.project, hpj, hdeal.project]
    · exact ⟨c, hnew.challenges ▸ hnew.get, hnew.project⟩
  ledger id l hg := by
    have persists {p} (hp : db.projects.get? l.projectId = some p) (hs : p.status ≠ .draft) :
        ∃ p', db'.projects.get? l.projectId = some p' ∧ p'.status ≠ .draft := by
      obtain ⟨p', hp', hter⟩ := h.project_persists hp hs
      exact ⟨p', hp', hter.published⟩
    rcases h.ledger_origin hg with hold | ⟨p, hp, hs, -⟩ | ⟨j, c, hc, hpj, -⟩ | ⟨c, hc, -, hent⟩
    · obtain ⟨p, hp, hs⟩ := hl.ledger id l hold
      exact persists hp hs
    · exact ⟨p, hp, hs⟩
    · obtain ⟨p, hp, hs, -⟩ := hl.challenge j c hc
      exact persists (hpj ▸ hp) hs
    · obtain ⟨p, hp, hs, -⟩ := hl.challenge _ c hc
      exact persists (hent.project ▸ hp) hs

/-- The rows are linked in every reachable state. -/
theorem linked_of_run {ok : Event → Db → Prop} {t : ℤ} {users : Table User} {c : Timed Db}
    (h : Run ok (start t users) c) : Linked c.state :=
  Timed.invariant (P := fun _ db => Linked db)
    (fun _ db e hl _ _ => (step_transition e db).linked hl) h (linked_empty users)

end LmmApi.Bounty
