import LmmApi.Bounty.Ledger

/-!
# Reward slots

A challenge holds a claim on a slot while it can still be paid (`holdsClaim`): it is under way or
paid, it was rejected and its participant may still appeal, or the appeal is open. The number of
claims of a project must not exceed its slots, since the escrow holds one reward for each.

Claims appear only when a challenge is accepted (`Transition.holdsClaim_back`), so the count that
`AcceptOpenSourceBounty` makes decides. That count leaves out a rejected challenge once any dispute
on it is resolved, the owner's included, although its participant may still appeal: such challenges
are `freedByOwnerDispute`. Where none is around when a challenge is accepted, the slots suffice
(`slots_suffice`); with one, they do not (`slots_exceeded`).
-/

namespace LmmApi.Bounty

open Guarded List Option Table

variable {now : ℤ} {op : Op} {db db' : Db}

/-! ## Claims -/

/-- A dispute of `user` on the challenge is open. -/
def hasOpenDisputeOf (db : Db) (challengeId user : ℕ) : Prop :=
  db.disputes.Any fun _ d =>
    d.challengeId = challengeId ∧ d.openedByUserId = user ∧ d.status = .open_
  deriving Decidable

/-- A dispute of `user` on the challenge is resolved. -/
def hasResolvedDisputeOf (db : Db) (challengeId user : ℕ) : Prop :=
  db.disputes.Any fun _ d =>
    d.challengeId = challengeId ∧ d.openedByUserId = user ∧ d.status.Resolved
  deriving Decidable

/-- A rejection that its participant can still appeal: less than seven days old, with no resolved
dispute of the participant. -/
def mayAppeal (db : Db) (now : ℤ) (id : ℕ) (c : Challenge) : Prop :=
  c.status = .rejected ∧ now - c.rejectedAt < appealWindowSeconds ∧
    ¬hasResolvedDisputeOf db id c.participantUserId
  deriving Decidable

/-- The challenges that hold a claim on a slot. -/
def holdsClaim (db : Db) (now : ℤ) (id : ℕ) (c : Challenge) : Prop :=
  c.status.Standing ∨ mayAppeal db now id c ∨ hasOpenDisputeOf db id c.participantUserId
  deriving Decidable

/-- The number of claims on the slots of a project. -/
def claimCount (db : Db) (now : ℤ) (projectId : ℕ) : ℤ :=
  db.challenges.count fun i c => c.projectId = projectId ∧ holdsClaim db now i c

/-- A rejection that its participant can still appeal, but that no longer counts as occupying a
slot: a dispute of somebody else on it is resolved. -/
def freedByOwnerDispute (db : Db) (now : ℤ) (id : ℕ) (c : Challenge) : Prop :=
  mayAppeal db now id c ∧ hasResolvedDispute db id ∧ ¬hasOpenDispute db id
  deriving Decidable

variable {id user pid owner : ℕ} {t : ℤ} {e : Event} {p : Project} {env : Env}

theorem hasOpenDispute_of (h : hasOpenDisputeOf db id user) : hasOpenDispute db id := by
  obtain ⟨j, d, hd, hid, -, hs⟩ := any_iff.1 h
  exact any_iff.2 ⟨j, d, hd, hid, hs⟩

variable {c : Challenge} {failure : Failure} {id : ℕ} {args : Review}

/-- A claim is counted by `occupiesSlot`, unless an owner's dispute freed it. -/
theorem holdsClaim.occupiesSlot (h : holdsClaim db now id c)
    (hfre : ¬freedByOwnerDispute db now id c) : occupiesSlot db now id c := by
  rcases h with hs | hm | ho
  · exact .inl hs
  · by_cases hop : hasOpenDispute db id
    · exact .inr (.inr hop)
    · refine .inr (.inl ⟨hm.1, ?_, fun hres => hfre ⟨hm, hres, hop⟩⟩)
      have := hm.2.1
      omega
  · exact .inr (.inr (hasOpenDispute_of ho))

/-- Claims lapse with time and do not come back. -/
theorem holdsClaim.mono (ht : t ≤ now) (h : holdsClaim db now id c) : holdsClaim db t id c := by
  rcases h with hs | ⟨hs, hw, hres⟩ | ho
  · exact .inl hs
  · exact .inr (.inl ⟨hs, by omega, hres⟩)
  · exact .inr (.inr ho)

theorem claimCount_mono (ht : t ≤ now) (pid : ℕ) : claimCount db now pid ≤ claimCount db t pid :=
  count_le_count fun _ _ _ h => ⟨h.1, h.2.mono ht⟩

/-! ## Claims across a transition -/

/-- A resolved dispute stays resolved. -/
theorem Transition.hasResolvedDisputeOf (h : Transition now op db db')
    (hres : hasResolvedDisputeOf db id user) : hasResolvedDisputeOf db' id user := by
  obtain ⟨j, d, hd, hid, hu, hs⟩ := any_iff.1 hres
  obtain ⟨d', hd', hc, hst⟩ := h.dispute_persists hd
  have hne : d.status ≠ .open_ := by rcases hs with hs | hs <;> simp [hs]
  refine any_iff.2 ⟨j, d', hd', hc.challenge.trans hid, hc.opener.trans hu, ?_⟩
  rw [hst hne]
  exact hs

/-- An open dispute was open, or its opener could claim before. -/
theorem Transition.hasOpenDisputeOf_back (h : Transition now op db db')
    (hc : db.challenges.get? id = some c)
    (ho : hasOpenDisputeOf db' id c.participantUserId) : holdsClaim db now id c := by
  obtain ⟨j, d', hd', rfl, hu, hs⟩ := any_iff.1 ho
  rcases h.dispute_origin hd' with ⟨d, hd, hca, hop⟩ | ⟨b, hnew⟩
  · refine .inr (.inr (any_iff.2 ⟨j, d, hd, ?_, ?_, hop hs⟩))
    · exact hca.challenge.symm
    · exact hca.opener.symm.trans hu
  · -- The participant's first dispute: the challenge is under way, paid, or can be appealed.
    obtain rfl := mem_unique hnew.get hc
    have hfst : ¬Bounty.hasResolvedDisputeOf db d'.challengeId b.participantUserId := by
      intro hres
      obtain ⟨i, d, hd, hid, hope, -⟩ := any_iff.1 hres
      exact hnew.first i d hd hid (hope.trans hu.symm)
    have hwin := hnew.inWindow
    cases hst : b.status with
    | accepted => exact .inl (.inl hst)
    | submitted => exact .inl (.inr (.inl hst))
    | approved => exact .inl (.inr (.inr hst))
    | rejected =>
      have hin := hwin hst
      exact .inr (.inl ⟨hst, by omega, hfst⟩)
    | withdrawn => exact absurd hst hnew.active.1
    | cancelled => exact absurd hst hnew.active.2

/-- **A claim of an old challenge is no new claim.** -/
theorem Transition.holdsClaim_back (h : Transition now op db db') {c c' : Challenge}
    (hc : db.challenges.get? id = some c) (hc' : db'.challenges.get? id = some c')
    (hcla : holdsClaim db' now id c') : holdsClaim db now id c := by
  cases h.challenge_move hc hc' with
  | kept remark =>
    rcases hcla with hs | ⟨hs, hw, hres⟩ | ho
    · rw [remark.status] at hs
      exact .inl hs
    · rw [remark.status] at hs
      rw [remark.rejectedAt] at hw
      rw [remark.participant] at hres
      exact .inr (.inl ⟨hs, hw, fun hold => hres (h.hasResolvedDisputeOf hold)⟩)
    · rw [remark.participant] at ho
      exact h.hasOpenDisputeOf_back hc ho
  | submitted _ _ _ _ _ _ _ before => exact .inl (.inl before)
  | released _ before =>
    rcases before with hs | hs
    · exact .inl (.inl hs)
    · exact .inl (.inr (.inl hs))
  | rejected _ before => exact .inl (.inr (.inl before))
  | paid _ before =>
    rcases before with hs | ⟨-, -, _, did, _, _, d, -, -, hd, hid, hop, hu⟩
    · exact .inl (.inr (.inl hs))
    · exact .inr (.inr (any_iff.2 ⟨did, d, hd, hid, hu, hop⟩))

/-- The condition on a step: no challenge is accepted for a project one of whose rejections was
freed by an owner's dispute. -/
def acceptsUnfreed (e : Event) (db : Db) : Prop :=
  ∀ participant pid handle, e.op = .accept participant pid handle →
    ∀ id c, db.challenges.get? id = some c → c.projectId = pid → ¬freedByOwnerDispute db e.time id c

/-- A step that meets the condition keeps the number of claims within the slots. -/
theorem claimCount_step (hok : acceptsUnfreed e db) {slots : ℤ}
    (hslo : ∀ p, db.projects.get? pid = some p → p.status = .published → p.rewardSlots = slots)
    (hle : claimCount db e.time pid ≤ slots) : claimCount (step e db) e.time pid ≤ slots := by
  have h := step_transition e db
  by_cases hnew : ∃ id c' p, c'.projectId = pid ∧ NewChallenge e.time e.op db (step e db) id c' p
  · -- The new challenge takes a free slot, and every old claim occupies one.
    obtain ⟨id, b, p, rfl, hb⟩ := hnew
    obtain ⟨handle, hop⟩ := hb.isOp
    have hcnt : claimCount (step e db) e.time b.projectId ≤
        db.challenges.count (fun i c => c.projectId = b.projectId ∧
          occupiesSlot db e.time i c) + [id].length := by
      refine count_le_count_add [id] ?_
      rintro i c' hc' ⟨hpj, hcla⟩
      rcases h.challenge_origin hc' with ⟨c, hc, hdeal⟩ | ⟨q, hq⟩
      · refine .inr ⟨c, hc, hdeal.project.symm.trans hpj, ?_⟩
        refine (h.holdsClaim_back hc hc' hcla).occupiesSlot ?_
        exact hok _ _ handle hop i c hc (hdeal.project.symm.trans hpj)
      · exact .inl (mem_singleton.2 (hq.key.trans hb.key.symm))
    have hfr := hb.free
    rw [hslo p hb.get hb.published] at hfr
    simp only [length_singleton, Nat.cast_one] at hcnt
    omega
  · have hcnt : claimCount (step e db) e.time pid ≤ claimCount db e.time pid +
        ([] : List ℕ).length := by
      refine count_le_count_add [] ?_
      rintro i c' hc' ⟨hpj, hcla⟩
      rcases h.challenge_origin hc' with ⟨c, hc, hdeal⟩ | ⟨q, hq⟩
      · exact .inr ⟨c, hc, hdeal.project.symm.trans hpj, h.holdsClaim_back hc hc' hcla⟩
      · exact absurd ⟨i, c', q, hpj, hq⟩ hnew
    simp only [length_nil, Nat.cast_zero, add_zero] at hcnt
    omega

/-- The number of claims of a project that is not published is zero. -/
theorem Linked.claimCount_eq_zero (hl : Linked db)
    (hp : ∀ p, db.projects.get? pid = some p → p.status = .draft) : claimCount db now pid = 0 :=
  count_eq_zero_iff.2 fun _ _ hc h => hl.no_challenge_of_draft hp hc h.1

/-- The claims of every project are within its slots. -/
def SlotsSuffice (now : ℤ) (db : Db) : Prop :=
  ∀ id p, db.projects.get? id = some p → claimCount db now id ≤ p.rewardSlots

theorem slotsSuffice_step (hl : Linked db) (hf : Funded db)
    (hs : SlotsSuffice t db) (ht : t ≤ e.time) (hok : acceptsUnfreed e db) :
    SlotsSuffice e.time (step e db) := by
  intro id p' hp'
  have h := step_transition e db
  have hl' := h.linked hl
  have hf' := h.funded hl hf
  by_cases hdra : p'.status = .draft
  · have hz : claimCount (step e db) e.time id = 0 := by
      refine hl'.claimCount_eq_zero fun q hq => ?_
      obtain rfl := mem_unique hp' hq
      exact hdra
    have := hf'.slots id p' hp'
    omega
  · by_cases hold : ∃ p, db.projects.get? id = some p ∧ p.status ≠ .draft
    · obtain ⟨p, hp, hps⟩ := hold
      obtain ⟨q, hq, hter⟩ := h.project_persists hp hps
      obtain rfl := mem_unique hq hp'
      rw [hter.slots]
      refine claimCount_step hok (fun b hb _ => ?_) ((claimCount_mono ht id).trans (hs id p hp))
      rw [mem_unique hb hp]
    · -- A project published by this step had no challenges, and gets none.
      have hn p (hp : db.projects.get? id = some p) : p.status = .draft := by
        by_contra hps
        exact hold ⟨p, hp, hps⟩
      have hpos := hf'.slots id p' hp'
      refine claimCount_step hok (fun b hb hbs => ?_) ?_
      · simp [hn b hb] at hbs
      · rw [hl.claimCount_eq_zero hn]
        exact hpos.le

/-! ## What follows for payouts -/

/-- A challenge that is under way has a claim beside those of the approved ones. -/
theorem approvedCount_add_one_le (hc : db.challenges.get? id = some c)
    (hs : c.status = .accepted ∨ c.status = .submitted) :
    approvedCount db c.projectId + 1 ≤ claimCount db now c.projectId := by
  refine count_add_one_le (fun i b _ hb => ⟨hb.1, .inl (.inr (.inr hb.2))⟩) hc ?_ ?_
  · rintro ⟨-, happ⟩
    rcases hs with hs | hs <;> simp [hs] at happ
  · rcases hs with hs | hs
    · exact ⟨rfl, .inl (.inl hs)⟩
    · exact ⟨rfl, .inl (.inr (.inl hs))⟩

/-- The escrow covers the reward of a challenge under way. -/
theorem reward_le_escrow (hl : Linked db) (hf : Funded db) (hs : SlotsSuffice now db) (hc : db.challenges.get? id = some c)
    (hp : db.projects.get? c.projectId = some p)
    (hcs : c.status = .accepted ∨ c.status = .submitted) (hps : p.status ≠ .closed) :
    0 < c.rewardQuota ∧ c.rewardQuota ≤ p.escrowQuota := by
  have hdra := hl.project_ne_draft hc hp
  have hnet := hl.terms _ p hp hdra
  have hroom : 1 ≤ p.rewardSlots - approvedCount db c.projectId := by
    have hcla := hs _ p hp
    have hone : approvedCount db c.projectId + 1 ≤ claimCount db now c.projectId :=
      approvedCount_add_one_le hc hcs
    omega
  rw [hl.reward hc hp, hf.held _ p hp hdra hps]
  exact ⟨hnet, le_mul_of_one_le_right hnet.le hroom⟩

/-- The wallet credit of a payout does not fail for want of escrow. -/
theorem creditParticipant_error {participant : ℕ} {quota : ℤ} {users : Table User}
    (h : creditParticipant participant quota users = .error failure) :
    openSourceBountyErrorCode failure ≠ some .escrowInsufficient := by
  rcases updateWalletQuotaByDelta_eq_error h with rfl | rfl
  · simp [openSourceBountyErrorCode]
  · simp [openSourceBountyErrorCode, bountyError]

/-- An approval fails for want of escrow only when the reward is not covered. -/
theorem approveChallenge_escrowInsufficient
    (h : approveChallenge env owner id c p args db = .error failure)
    (hc : openSourceBountyErrorCode failure = some .escrowInsufficient) :
    ¬(0 < c.rewardQuota ∧ c.rewardQuota ≤ p.escrowQuota) := by
  simp only [approveChallenge, createPayout, bind_eq_error, require_eq_error, eq_ok, pure_ne_error,
    and_false, exists_false, or_false] at h
  rcases h with ⟨-, rfl⟩ | ⟨-, ⟨hcov, -⟩ | ⟨-, hcr | ⟨_, -, -, rfl⟩⟩⟩
  · simp [openSourceBountyErrorCode, bountyError] at hc
  · exact hcov
  · exact absurd hc (creditParticipant_error hcr)
  · simp [openSourceBountyErrorCode] at hc

/-- The checks of a review before its transaction have other errors. -/
theorem reviewCheck_error (h : reviewOpenSourceBountyChallengeCheck args = .error failure) :
    openSourceBountyErrorCode failure ≠ some .escrowInsufficient := by
  have other : ∀ {code message} {P : Prop} [Decidable P], code ≠ .escrowInsufficient →
      require (bountyError code message) P = .error failure →
      openSourceBountyErrorCode failure ≠ some .escrowInsufficient := by
    intro code message P _ hc hreq
    obtain ⟨-, rfl⟩ := require_eq_error.1 hreq
    exact fun h => hc (some.inj h)
  rcases bind_eq_error.1 h with hnote | ⟨_, -, h⟩
  · exact other (by decide) hnote
  rcases bind_eq_error.1 h with hrat | ⟨_, -, h⟩
  · rcases bind_eq_error.1 hrat with hsco | ⟨_, -, hrat⟩
    · exact other (by decide) hsco
    rcases bind_eq_error.1 hrat with hcom | ⟨_, -, hrat⟩
    · exact other (by decide) hcom
    · exact absurd hrat pure_ne_error
  · exact absurd h pure_ne_error

/-- A review that fails for want of escrow found a submitted challenge whose reward is not covered
by its project. -/
theorem review_escrowInsufficient (h : (Op.review owner id args).run env db = .error failure)
    (hco : openSourceBountyErrorCode failure = some .escrowInsufficient) :
    ∃ c p, db.challenges.get? id = some c ∧ db.projects.get? c.projectId = some p ∧
      ¬(0 < c.rewardQuota ∧ c.rewardQuota ≤ p.escrowQuota) := by
  simp only [Op.run, Op.prepare, bind_eq_error, eq_ok, pure_ne_error, and_false, exists_false,
    or_false] at h
  rcases h with hche | ⟨tx, ⟨_, -, rfl⟩, h⟩
  · exact absurd hco (reviewCheck_error hche)
  simp only [reviewOpenSourceBountyChallengeTx, bind_eq_error, orFail_eq_error, eq_ok,
    require_eq_error, ownedProject_eq_ok] at h
  rcases h with ⟨-, rfl⟩ | ⟨c, hc, h⟩
  · simp [openSourceBountyErrorCode, bountyError] at hco
  rcases h with h | ⟨p, ⟨hp, -⟩, h⟩
  · simp only [ownedProject, orFail_eq_error] at h
    obtain ⟨-, rfl⟩ := h
    simp [openSourceBountyErrorCode, bountyError] at hco
  rcases h with ⟨-, rfl⟩ | ⟨-, h⟩
  · simp [openSourceBountyErrorCode, bountyError] at hco
  split at h
  · exact ⟨c, p, hc, hp, approveChallenge_escrowInsufficient h hco⟩
  · exact absurd h pure_ne_error

/-- **The slots suffice.** In a run that accepts no challenge while an owner's dispute has freed a
rejection of the project, the claims of a project never exceed its slots, now or later. Then a
completed project has no challenge under way, and no approval of a submitted challenge of a
published or paused project fails for want of escrow. -/
theorem slots_suffice {t : ℤ} {users : Table User} {c : Timed Db}
    (h : Run acceptsUnfreed (start t users) c) :
    (∀ now, c.clock ≤ now → ∀ id p, c.state.projects.get? id = some p →
        claimCount c.state now id ≤ p.rewardSlots) ∧
      (∀ id p, c.state.projects.get? id = some p → p.status = .completed →
        ∀ j b, c.state.challenges.get? j = some b → b.projectId = id →
          b.status ≠ .accepted ∧ b.status ≠ .submitted) ∧
      ∀ id p, c.state.projects.get? id = some p → p.status.Active →
        ∀ j b, c.state.challenges.get? j = some b → b.projectId = id → b.status = .submitted →
          ∀ env owner args failure, args.approve = true →
            (Op.review owner j args).run env c.state = .error failure →
            openSourceBountyErrorCode failure ≠ some .escrowInsufficient := by
  have hstart : SlotsSuffice t (.empty users) := by
    intro id p hp
    cases hp
  obtain ⟨hl, hf, hs⟩ := Timed.invariant
    (P := fun t db => Linked db ∧ Funded db ∧ SlotsSuffice t db)
    (fun t db e hP ht hok =>
      ⟨(step_transition e db).linked hP.1, (step_transition e db).funded hP.1 hP.2.1,
        slotsSuffice_step hP.1 hP.2.1 hP.2.2 ht hok⟩)
    h ⟨linked_empty users, funded_empty users, hstart⟩
  refine ⟨fun now hnow id p hp => (claimCount_mono hnow id).trans (hs id p hp), ?_, ?_⟩
  · intro id p hp hcompleted j b hb hproject
    subst hproject
    have hclosed : p.status ≠ .closed := by simp [hcompleted]
    have hempty := hf.spent _ p hp (.inl hcompleted)
    constructor
    · intro hbs
      have hcov := reward_le_escrow hl hf hs hb hp (.inl hbs) hclosed
      omega
    · intro hbs
      have hcov := reward_le_escrow hl hf hs hb hp (.inr hbs) hclosed
      omega
  · intro id p hp hactive j b hb hproject hbs env owner args failure _ herr hcode
    subst hproject
    obtain ⟨b', p', hb', hp', huncovered⟩ := review_escrowInsufficient herr hcode
    obtain rfl := mem_unique hb hb'
    obtain rfl := mem_unique hp hp'
    exact huncovered (reward_le_escrow hl hf hs hb hp (.inr hbs) hactive.not_spent.2)

/-- The condition holds of every step from a state without freed rejections. -/
theorem acceptsUnfreed_of_none_freed (e : Event)
    (h : ¬db.challenges.Any fun id c => freedByOwnerDispute db e.time id c) : acceptsUnfreed e db := by
  intro _ _ _ _ id c hc _ hfre
  exact h (any_iff.2 ⟨id, c, hc, hfre⟩)

/-- The owner disputes the rejected challenge of the only slot, an administrator denies the dispute, and
another challenge is accepted at some time. -/
def disputedEvents (t : ℤ) : List Event :=
  [.at_ 1 (.createDraft 1 sampleDraft), .at_ 2 (.publish none 1 1),
    .at_ 3 (.accept 2 1 "alice"), .at_ 4 (.submit 2 1 "" samplePull ""),
    .at_ 5 (.review 1 1 ⟨false, "", 1, "no"⟩),
    .at_ 5 (.openDispute 1 1 "other" "the work is not finished"),
    .at_ 6 (.resolveDispute 4 1 "deny" "not for us to decide"), .at_ t (.accept 3 1 "bob")]

/-- A challenge that takes the only slot when the rejected one can no longer be appealed. -/
theorem slots_suffice_disputed :
    let c := sampleRun (disputedEvents (5 + appealWindowSeconds))
    claimCount c.state c.clock 1 = 1 ∧ ∀ id p, c.state.projects.get? id = some p →
        claimCount c.state c.clock id ≤ p.rewardSlots := by
  refine ⟨by decide +kernel, ?_⟩
  refine (slots_suffice
    (Timed.reaches_runList_of (start 0 sampleUsers) _ (by decide) ?_)).1 _ le_rfl
  intro n hn
  refine acceptsUnfreed_of_none_freed _ ?_
  revert n
  decide +kernel

/-- **The slots can be exceeded**: the rejection is a second old, its participant has not appealed, and
a new challenge is accepted for the only slot. -/
theorem slots_exceeded : ∃ c : Timed Db, Run Timed.anyStep (start 0 sampleUsers) c ∧
      ∃ p, c.state.projects.get? 1 = some p ∧ p.rewardSlots < claimCount c.state c.clock 1 := by
  refine ⟨sampleRun (disputedEvents 6), Timed.reaches_runList _ _ (by decide), ?_⟩
  change ∃ p ∈ Table.get? _ 1, _
  decide +kernel

end LmmApi.Bounty
