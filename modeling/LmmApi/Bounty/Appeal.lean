import LmmApi.Bounty.Slots

/-!
# The appeal window

A contributor whose work was rejected has seven days to appeal, and until then the owner must not
get the escrow back by closing the bounty. `CloseOpenSourceBounty` looks for appealable rejections,
but leaves out those on which any dispute is resolved, the owner's included.

Where no bounty is closed while an owner's dispute has freed one of its rejections, the window is
respected (`appeal_protected`); otherwise it is not (`appeal_denied`).
-/

namespace LmmApi.Bounty

open List Option Table Timed

variable {now : ℤ} {op : Op} {db db' : Db}

/-! ## Closed projects are idle -/

/-- No challenge of a closed project is under way. -/
def ClosedIdle (db : Db) : Prop :=
  ∀ id p, db.projects.get? id = some p → p.status = .closed →
    ∀ j c, db.challenges.get? j = some c → c.projectId = id →
      c.status ≠ .accepted ∧ c.status ≠ .submitted

theorem Transition.closedIdle (h : Transition now op db db') (hl : Linked db)
    (hi : ClosedIdle db) : ClosedIdle db' := by
  intro id p' hp' hs' j c' hc' hpj
  rcases h.challenge_origin hc' with ⟨c, hc, hdeal⟩ | ⟨q, hnew⟩
  · have hcp : c.projectId = id := hdeal.project.symm.trans hpj
    obtain ⟨p, hp, -⟩ := hl.challenge j c hc
    rw [hcp] at hp
    by_cases hs : p.status = .closed
    · obtain ⟨hacc, hsub⟩ := hi id p hp hs j c hc hcp
      cases h.challenge_move hc hc' with
      | kept remark =>
        rw [remark.status]
        exact ⟨hacc, hsub⟩
      | submitted _ _ _ _ _ _ _ before => exact absurd before hacc
      | released _ _ after => rcases after with ha | ha <;> simp [ha]
      | rejected _ _ after => simp [after]
      | paid _ _ after => simp [after]
    · have hcl := h.closed_by hp hs hp' hs'
      rw [hcl.challenges] at hc'
      obtain ⟨hacc, hsub, -⟩ := hcl.idle j c' hc' hpj
      exact ⟨hacc, hsub⟩
  · have hq := hnew.get
    rw [hpj, ← hnew.projects, hp'] at hq
    cases hq
    simp [hnew.published] at hs'

variable {ok : Event → Db → Prop} {t : ℤ} {users : Table User} {c : Timed Db} {id user : ℕ}
  {e : Event}

theorem closedIdle_of_run (h : Run ok (start t users) c) : ClosedIdle c.state := by
  have h₀ : ClosedIdle (.empty users) := by
    intro id p hp
    cases hp
  refine (invariant (P := fun _ db => Linked db ∧ ClosedIdle db) ?_ h ⟨linked_empty users, h₀⟩).2
  rintro _ db e ⟨hl, hi⟩ - -
  exact ⟨(step_transition e db).linked hl, (step_transition e db).closedIdle hl hi⟩

/-! ## Refunds are made by closing -/

/-- A closed project stays closed. -/
theorem Transition.closed_persists (h : Transition now op db db') (hl : Linked db)
    (hf : Funded db) {p : Project} (hp : db.projects.get? id = some p) (hs : p.status = .closed) :
    ∃ p', db'.projects.get? id = some p' ∧ p'.status = .closed := by
  obtain ⟨p', hp', hter⟩ := h.project_persists hp (by simp [hs])
  refine ⟨p', hp', ?_⟩
  cases h.project_move hl hp' with
  | kept q get edit =>
    obtain rfl := mem_unique get hp
    rcases edit.status with hst | ⟨hst, -⟩
    · exact hst.trans hs
    · exact absurd hs hst.not_spent.2
  | draft status => exact absurd status hter.published
  | published q get before =>
    obtain rfl := mem_unique get hp
    simp [hs] at before
  | closed _ _ _ status => exact status
  | paid q _ get _ _ positive covered =>
    obtain rfl := mem_unique get hp
    exact absurd hs (hf.active_of_covered get (positive.trans_le covered)).not_spent.2

/-- Escrow was refunded only to the owners of closed projects. -/
def RefundsClosed (db : Db) : Prop :=
  ∀ j l, db.ledgers.get? j = some l → l.kind = .escrowRefund →
    ∃ p, db.projects.get? l.projectId = some p ∧ p.status = .closed

theorem Transition.refundsClosed (h : Transition now op db db') (hl : Linked db) (hf : Funded db)
    (hr : RefundsClosed db) : RefundsClosed db' := by
  intro j l hg hkind
  rcases h.ledger_origin hg with hold | ⟨p, hp, -, hk⟩ | ⟨_, _, -, -, hk⟩ | ⟨_, -, -, hent⟩
  · obtain ⟨p, hp, hs⟩ := hr j l hold hkind
    exact h.closed_persists hl hf hp hs
  · rcases hk with hk | hk | ⟨-, hs⟩
    · simp [hkind] at hk
    · simp [hkind] at hk
    · exact ⟨p, hp, hs⟩
  · simp [hkind] at hk
  · rcases hent.kind with hk | hk <;> simp [hkind] at hk

theorem refundsClosed_of_run (h : Run ok (start t users) c) : RefundsClosed c.state := by
  have h₀ : RefundsClosed (.empty users) := by
    intro j l hg
    cases hg
  refine (invariant (P := fun _ db => (Linked db ∧ Funded db) ∧ RefundsClosed db) ?_ h
    ⟨⟨linked_empty users, funded_empty users⟩, h₀⟩).2
  rintro _ db e ⟨⟨hl, hf⟩, hr⟩ - -
  have ht := step_transition e db
  exact ⟨⟨ht.linked hl, ht.funded hl hf⟩, ht.refundsClosed hl hf hr⟩

/-! ## The window -/

/-- The condition on a step: no bounty is closed while an owner's dispute has freed one of its
rejections. -/
def closesUnfreed (e : Event) (db : Db) : Prop :=
  ∀ owner pid, e.op = .close owner pid →
    ∀ id c, db.challenges.get? id = some c → c.projectId = pid → ¬freedByOwnerDispute db e.time id c

/-- `user` has opened no dispute on the challenge. -/
def Unappealed (db : Db) (id user : ℕ) : Prop :=
  ∀ j d, db.disputes.get? j = some d → d.challengeId = id → d.openedByUserId ≠ user

/-- The challenge `id` of `user` was rejected at `t` for the project `pid`, which is not closed. -/
def Protected (t : ℤ) (id user pid : ℕ) (db : Db) : Prop :=
  (∃ c, db.challenges.get? id = some c ∧ c.status = .rejected ∧ c.rejectedAt = t ∧
      c.participantUserId = user ∧ c.projectId = pid) ∧
    ∃ p, db.projects.get? pid = some p ∧ p.status ≠ .closed

/-- A challenge without an appeal had none before. -/
theorem Transition.unappealed_back (h : Transition now op db db')
    (hu : Unappealed db' id user) : Unappealed db id user := by
  intro j d hd hid hus
  obtain ⟨d', hd', hc, -⟩ := h.dispute_persists hd
  exact hu j d' hd' (hc.challenge.trans hid) (hc.opener.trans hus)

/-- A step in the window that meets the condition keeps the rejection and does not close the
project. -/
theorem protected_step {pid : ℕ} (hl : Linked db)
    (hok : closesUnfreed e db) (hwin : e.time < t + appealWindowSeconds)
    (hu : Unappealed (step e db) id user) (hP : Protected t id user pid db) :
    Protected t id user pid (step e db) := by
  have h := step_transition e db
  have hu₀ := h.unappealed_back hu
  obtain ⟨⟨c, hc, hs, hat, hus, hpid⟩, p, hp, hps⟩ := hP
  subst hus hpid
  obtain ⟨c', hc', hdeal, -⟩ := h.challenge_persists hc
  obtain ⟨p', hp', -⟩ := h.project_persists hp (hl.project_ne_draft hc hp)
  refine ⟨⟨c', hc', ?_⟩, p', hp', fun hcl => ?_⟩
  · cases h.challenge_move hc hc' with
    | kept remark =>
      exact ⟨remark.status.trans hs, remark.rejectedAt.trans hat, hdeal.participant, hdeal.project⟩
    | submitted _ _ _ _ _ _ _ before | released _ before | rejected _ before => simp [hs] at before
    | paid _ before =>
      -- Only an open dispute of the participant pays a rejected challenge.
      rcases before with hsub | ⟨-, -, _, did, _, _, d, -, -, hd, hid, -, hope⟩
      · simp [hs] at hsub
      · exact absurd hope (hu₀ did d hd hid)
  · -- Closing found a resolved dispute on the rejection, which is not the participant's.
    have hby := h.closed_by hp hps hp' hcl
    obtain ⟨-, -, hnot⟩ := hby.idle id c hc rfl
    refine hok _ _ hby.isOp id c hc rfl ⟨⟨hs, by omega, ?_⟩, ?_, ?_⟩
    · intro hres
      obtain ⟨j, d, hd, hid, hope, -⟩ := any_iff.1 hres
      exact hu₀ j d hd hid hope
    · by_contra hres
      exact hnot ⟨hs, by omega, hres⟩
    · intro hop
      obtain ⟨j, d, hd, hid, hst⟩ := any_iff.1 hop
      obtain ⟨b, hb, hpj⟩ := hl.dispute j d hd
      rw [hid] at hb
      obtain rfl := mem_unique hb hc
      exact hby.settled j d hd hpj hst

/-- The step that rejects a submitted challenge starts its protection. -/
theorem protected_of_reject {b b' : Challenge} (hl : Linked db)
    (hi : ClosedIdle db) (hb : db.challenges.get? id = some b) (hsub : b.status = .submitted)
    (hb' : (step e db).challenges.get? id = some b') (hrej : b'.status = .rejected) :
    Protected e.time id b.participantUserId b.projectId (step e db) := by
  have h := step_transition e db
  obtain ⟨p, hp, hpdr, -⟩ := hl.challenge id b hb
  obtain ⟨p', hp', -⟩ := h.project_persists hp hpdr
  have hop : p.status ≠ .closed := fun hcl => (hi _ p hp hcl id b hb rfl).2 hsub
  refine ⟨⟨b', hb', hrej, ?_⟩, p', hp', fun hcl => ?_⟩
  · cases h.challenge_move hb hb' with
    | kept remark => simp [remark.status, hsub] at hrej
    | submitted _ _ _ _ _ _ _ _ after | paid _ _ after => simp [after] at hrej
    | released _ _ after => rcases after with ha | ha <;> simp [ha] at hrej
    | rejected same _ _ rejectedAt => exact ⟨rejectedAt, same.participant, same.project⟩
  · exact ((h.closed_by hp hop hp' hcl).idle id b hb rfl).2.1 hsub

/-- **The appeal window protects the escrow.** After a submitted challenge is rejected, in a run
that closes no bounty while an owner's dispute has freed one of its rejections, the project is not
closed and nothing of its escrow is refunded before seven days have passed, as long as the
participant opens no dispute. -/
theorem appeal_protected {t : ℤ} {users : Table User} {c₁ c₂ : Timed Db} {e : Event} {id : ℕ}
    {b b' : Challenge} (h₁ : Run Timed.anyStep (start t users) c₁) (hclock : c₁.clock ≤ e.time)
    (hb : c₁.state.challenges.get? id = some b) (hsub : b.status = .submitted)
    (hb' : (step e c₁.state).challenges.get? id = some b') (hrej : b'.status = .rejected)
    (h₂ : Run closesUnfreed ⟨e.time, step e c₁.state⟩ c₂)
    (hwindow : c₂.clock < e.time + appealWindowSeconds)
    (hu : Unappealed c₂.state id b.participantUserId) :
    (∃ p, c₂.state.projects.get? b.projectId = some p ∧ p.status ≠ .closed) ∧
      ∀ j l, c₂.state.ledgers.get? j = some l → l.projectId = b.projectId →
        l.kind ≠ .escrowRefund := by
  have hl := linked_of_run h₁
  have hstart := protected_of_reject (e := e) hl (closedIdle_of_run h₁) hb hsub hb' hrej
  have hprotected := (invariant
    (P := fun now db => Linked db ∧ (now < e.time + appealWindowSeconds →
      Unappealed db id b.participantUserId →
      Protected e.time id b.participantUserId b.projectId db))
    (fun now db i hP hnow hok => ⟨(step_transition i db).linked hP.1, fun hw hun =>
      protected_step hP.1 hok hw hun
        (hP.2 (by omega) ((step_transition i db).unappealed_back hun))⟩)
    h₂ ⟨(step_transition e _).linked hl, fun _ _ => hstart⟩).2 hwindow hu
  obtain ⟨-, p, hp, hps⟩ := hprotected
  have hrun : Run anyStep (start t users) c₂ := (h₁.tail (.mk e hclock trivial)).trans h₂.toAny
  refine ⟨⟨p, hp, hps⟩, fun j l hget hproject hkind => ?_⟩
  obtain ⟨q, hq, hclosed⟩ := refundsClosed_of_run hrun j l hget hkind
  rw [hproject] at hq
  obtain rfl := mem_unique hq hp
  exact hps hclosed

/-! ## A rejection, with and without the owner's dispute -/

theorem unappealed_of_not_any
    (h : ¬db.disputes.Any fun _ d => d.challengeId = id ∧ d.openedByUserId = user) :
    Unappealed db id user :=
  fun j d hd hid hu => h (any_iff.2 ⟨j, d, hd, hid, hu⟩)

/-- The condition holds of every step from a state without disputes. -/
theorem closesUnfreed_of_undisputed (e : Event) (h : ¬db.disputes.Any fun _ _ => True) :
    closesUnfreed e db := by
  intro _ _ _ id c _ _ hfre
  obtain ⟨j, d, hd, -⟩ := any_iff.1 hfre.2.1
  exact h (any_iff.2 ⟨j, d, hd, trivial⟩)

/-- The sample bounty with a submitted challenge. -/
def submittedRun : Timed Db :=
  sampleRun [.at_ 1 (.createDraft 1 sampleDraft), .at_ 2 (.publish none 1 1),
    .at_ 3 (.accept 2 1 "alice"), .at_ 4 (.submit 2 1 "" samplePull "")]

/-- The rejection of that challenge. -/
def rejection : Event := .at_ 5 (.review 1 1 ⟨false, "", 1, "no"⟩)

theorem reaches_submittedRun : Run anyStep (start 0 sampleUsers) submittedRun :=
  reaches_runList _ _ (by decide)

theorem submittedRun_challenge :
    (∃ b ∈ submittedRun.state.challenges.get? 1,
      b.status = .submitted ∧ b.participantUserId = 2 ∧ b.projectId = 1) ∧
      ∃ b' ∈ (step rejection submittedRun.state).challenges.get? 1, b'.status = .rejected := by
  decide +kernel

/-- The owner cannot close the bounty right after the rejection. -/
theorem appeal_protected_close :
    ∃ p, (step (.at_ 6 (.close 1 1)) (step rejection submittedRun.state)).projects.get? 1 = some p ∧
      p.status ≠ .closed := by
  obtain ⟨⟨b, hb, hsub, huser, hproject⟩, b', hb', hrej⟩ := submittedRun_challenge
  let db := step rejection submittedRun.state
  have hdisputes : (¬db.disputes.Any fun _ _ => True) ∧
      ¬(step (.at_ 6 (.close 1 1)) db).disputes.Any fun _ d =>
        d.challengeId = 1 ∧ d.openedByUserId = 2 := by
    decide +kernel
  have hrun : Run closesUnfreed ⟨rejection.time, db⟩ ⟨6, step (.at_ 6 (.close 1 1)) db⟩ :=
    Timed.Reaches.single (Event.at_ 6 (.close 1 1)) (by decide)
      (closesUnfreed_of_undisputed _ hdisputes.1)
  have hopen := (appeal_protected reaches_submittedRun (by decide) hb hsub hb' hrej hrun (by decide)
    (huser ▸ unappealed_of_not_any hdisputes.2)).1
  rwa [hproject] at hopen

/-- **The window can be cut short**: the owner disputes the rejected challenge, an administrator
denies the dispute, and the owner closes the bounty one second after the rejection. -/
theorem appeal_denied :
    ∃ (c₁ c₂ : Timed Db) (e : Event) (b b' : Challenge),
      Run Timed.anyStep (start 0 sampleUsers) c₁ ∧ c₁.clock ≤ e.time ∧
      c₁.state.challenges.get? 1 = some b ∧ b.status = .submitted ∧
      (step e c₁.state).challenges.get? 1 = some b' ∧ b'.status = .rejected ∧
      Run Timed.anyStep ⟨e.time, step e c₁.state⟩ c₂ ∧
      c₂.clock < e.time + appealWindowSeconds ∧
      Unappealed c₂.state 1 b.participantUserId ∧
      ∃ p, c₂.state.projects.get? b.projectId = some p ∧ p.status = .closed := by
  obtain ⟨⟨b, hb, hsub, huser, hproject⟩, b', hb', hrej⟩ := submittedRun_challenge
  let c := runList step Event.time ⟨rejection.time, step rejection submittedRun.state⟩
    [.at_ 5 (.openDispute 1 1 "other" "the work is not finished"),
      .at_ 6 (.resolveDispute 4 1 "deny" "not for us to decide"), .at_ 6 (.close 1 1)]
  have hend : (¬c.state.disputes.Any fun _ d => d.challengeId = 1 ∧ d.openedByUserId = 2) ∧
      ∃ p ∈ c.state.projects.get? 1, p.status = .closed := by
    decide +kernel
  exact ⟨submittedRun, c, rejection, b, b', reaches_submittedRun, by decide, hb, hsub, hb', hrej,
    reaches_runList _ _ (by decide), by decide, huser ▸ unappealed_of_not_any hend.1,
    hproject ▸ hend.2⟩

end LmmApi.Bounty
