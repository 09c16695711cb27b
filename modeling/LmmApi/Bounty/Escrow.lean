import LmmApi.Bounty.Invariant

/-!
# Escrow

The escrow of a running project is one net reward for each slot that is not paid yet, and drafts,
completed and closed projects hold nothing: `Funded` holds in every reachable state.

`ProjectMove` sorts the transitions by what they do to one project, and counts its approved
challenges.
-/

namespace LmmApi.Bounty

open Option Table

variable {now : ℤ} {op : Op} {db db' : Db}

/-! ## Approved challenges -/

/-- The number of approved challenges of a project. -/
def approvedCount (db : Db) (projectId : ℕ) : ℤ :=
  db.challenges.count fun _ c => c.projectId = projectId ∧ c.status = .approved

variable {id : ℕ} {c : Challenge}

section

variable {f : Challenge → Challenge} (hc : db.challenges.get? id = some c)
  (hdeal : c.SameDeal (f c))
include hc hdeal

/-- A change that neither makes nor unmakes an approval keeps the number. -/
theorem approvedCount_modify (hst : (f c).status = .approved ↔ c.status = .approved) (pid : ℕ) :
    (db.challenges.modify id f).count (fun _ c => c.projectId = pid ∧ c.status = .approved) =
      approvedCount db pid := by
  rw [count_modify hc]
  simp only [hdeal.project, hst, approvedCount]
  omega

/-- An approval adds one to its project. -/
theorem approvedCount_approve
    (hbef : c.status ≠ .approved) (haft : (f c).status = .approved) (pid : ℕ) :
    (db.challenges.modify id f).count (fun _ c => c.projectId = pid ∧ c.status = .approved) =
      approvedCount db pid + if pid = c.projectId then 1 else 0 := by
  rw [count_modify hc, hdeal.project, approvedCount]
  simp only [hbef, haft, and_false, and_true, if_false, eq_comm (a := c.projectId)]
  omega

end

theorem Payable.ne_approved (h : Payable db op id c) : c.status ≠ .approved := by
  rcases h with hs | ⟨hs, -⟩ <;> simp [hs]

/-! ## What happens to a project -/

/-- The ways a project comes out of a transition, with the number of its approved challenges. -/
inductive ProjectMove (db db' : Db) (id : ℕ) (p' : Project) : Prop
  | kept (p : Project) (get : db.projects.get? id = some p) (edit : p.Edit p')
      (approved : p.status ≠ .draft → approvedCount db' id = approvedCount db id)
  | draft (status : p'.status = .draft) (escrow : p'.escrowQuota = 0) (slots : 0 < p'.rewardSlots)
  | published (p : Project) (get : db.projects.get? id = some p) (before : p.status = .draft)
      (status : p'.status = .published)
      (escrow : p'.escrowQuota = p'.netRewardQuota * p'.rewardSlots)
      (net : 0 < p'.netRewardQuota) (slots : 0 < p'.rewardSlots)
      (approved : approvedCount db' id = 0)
  | closed (p : Project) (get : db.projects.get? id = some p) (active : p.status.Active)
      (status : p'.status = .closed) (escrow : p'.escrowQuota = 0)
      (slots : p'.rewardSlots = p.rewardSlots)
  | paid (p : Project) (now : ℤ) (get : db.projects.get? id = some p) (status : p.status ≠ .draft)
      (eq : p' = p.payReward now p.netRewardQuota) (positive : 0 < p.netRewardQuota)
      (covered : p.netRewardQuota ≤ p.escrowQuota)
      (approved : approvedCount db' id = approvedCount db id + 1)

theorem Project.Edit.refl (p : Project) : p.Edit p :=
  ⟨rfl, rfl, rfl, .inl rfl, fun _ => rfl, fun hpos => hpos⟩

/-- **What a transition does to a project.** -/
theorem Transition.project_move (h : Transition now op db db') (hl : Linked db)
    {p' : Project} (hp' : db'.projects.get? id = some p') : ProjectMove db db' id p' := by
  -- A transition that leaves the projects alone and changes challenges without approving any.
  have frame : db'.projects = db.projects → approvedCount db' id = approvedCount db id →
      ProjectMove db db' id p' := fun hpro happr =>
    .kept p' (hpro ▸ hp') (.refl p') fun _ => happr
  cases h with
  | newDraft _ status escrow slots =>
    rcases get?_insert_cases hp' with ⟨-, rfl⟩ | hold
    · exact .draft status escrow slots
    · exact .kept p' hold (.refl p') fun _ => rfl
  | edit _ p _ get edit =>
    rcases get?_modify_cases get hp' with ⟨rfl, rfl⟩ | ⟨-, hold⟩
    · exact .kept p get edit fun _ => rfl
    · exact .kept p' hold (.refl p') fun _ => rfl
  | deleteDraft => exact .kept p' (get?_eraseWhere_eq_some.1 hp').1 (.refl p') fun _ => rfl
  | publish _ p _ _ _ _ _ get status charged published =>
    rcases get?_modify_cases get hp' with ⟨rfl, rfl⟩ | ⟨-, hold⟩
    · obtain ⟨-, hesc, hnet, hslo, -⟩ :=
        calculateOpenSourceBountyPublicationCharge_spec charged
      obtain ⟨hs, he, hn, hr, -⟩ := published
      refine .published p get status hs (by rw [he, hn, hr, hesc]) (hn ▸ hnet) (hr ▸ hslo) ?_
      refine count_eq_zero_iff.2 fun i c hc happ => ?_
      refine hl.no_challenge_of_draft (fun q hq => ?_) hc happ.1
      obtain rfl := mem_unique get hq
      exact status
    · exact .kept p' hold (.refl p') fun _ => rfl
  | close _ p _ _ _ _ get status _ _ closed =>
    rcases get?_modify_cases get hp' with ⟨rfl, rfl⟩ | ⟨-, hold⟩
    · exact .closed p get status closed.1 closed.2.1 closed.2.2.2.1
    · exact .kept p' hold (.refl p') fun _ => rfl
  | accept _ _ _ _ _ _ _ status =>
    refine frame rfl ?_
    simp [approvedCount, count_insert, status]
  | submit _ _ _ _ _ _ _ _ _ get _ same status submitted =>
    exact frame rfl (approvedCount_modify get same (by simp [status, submitted]) id)
  | release _ _ _ get same status released =>
    refine frame rfl (approvedCount_modify get same.toSameDeal ?_ id)
    rcases status with hs | hs <;> rcases released with hr | hr <;> simp [hs, hr]
  | reject _ _ _ get same status rejected =>
    exact frame rfl (approvedCount_modify get same.toSameDeal (by simp [status, rejected]) id)
  | remark _ _ _ get remark | tip _ _ _ _ _ get remark =>
    exact frame rfl (approvedCount_modify get remark.toSameDeal (by rw [remark.status]) id)
  | pay _ _ p _ _ _ _ _ get getProject payable same approved positive covered =>
    have hcnt := approvedCount_approve get same.toSameDeal payable.ne_approved approved id
    have hrew := hl.reward get getProject
    rcases get?_modify_cases getProject hp' with ⟨rfl, rfl⟩ | ⟨hne, hold⟩
    · rw [if_pos rfl] at hcnt
      rw [hrew] at positive covered ⊢
      exact .paid p now getProject (hl.project_ne_draft get getProject) rfl positive covered hcnt
    · rw [if_neg hne, add_zero] at hcnt
      exact .kept p' hold (.refl p') fun _ => hcnt
  | _ => exact frame rfl rfl

/-- A project that is closed by a transition was closed by its owner, with no challenge under way,
no open dispute and no appealable rejection. -/
structure ClosedBy (now : ℤ) (op : Op) (db db' : Db) (id : ℕ) (p : Project) : Prop where
  isOp : op = .close p.ownerUserId id
  idle : ∀ j c, db.challenges.get? j = some c → c.projectId = id →
    c.status ≠ .accepted ∧ c.status ≠ .submitted ∧ ¬appealableRejection db now j c
  settled : ∀ j d, db.disputes.get? j = some d → d.projectId = id → d.status ≠ .open_
  challenges : db'.challenges = db.challenges

theorem ProjectStatus.Active.not_spent {s : ProjectStatus} (h : s.Active) :
    s ≠ .completed ∧ s ≠ .closed := by
  rcases h with rfl | rfl <;> simp

theorem Transition.closed_by (h : Transition now op db db') {p p' : Project}
    (hp : db.projects.get? id = some p) (hs : p.status ≠ .closed)
    (hp' : db'.projects.get? id = some p') (hs' : p'.status = .closed) :
    ClosedBy now op db db' id p := by
  have notold : db.projects.get? id ≠ some p' := by
    intro hold
    obtain rfl := mem_unique hp hold
    exact hs hs'
  cases h with
  | newDraft =>
    rcases get?_insert_cases hp' with ⟨rfl, -⟩ | hold
    · simp at hp
    · exact absurd hold notold
  | edit _ q _ get edit =>
    rcases get?_modify_cases get hp' with ⟨rfl, rfl⟩ | ⟨-, hold⟩
    · obtain rfl := mem_unique get hp
      rcases edit.status with hst | ⟨-, hst⟩
      · exact absurd (hst.symm.trans hs') hs
      · exact absurd hs' hst.not_spent.2
    · exact absurd hold notold
  | deleteDraft => exact absurd (get?_eraseWhere_eq_some.1 hp').1 notold
  | publish _ _ _ _ _ _ _ get _ _ published =>
    rcases get?_modify_cases get hp' with ⟨rfl, rfl⟩ | ⟨-, hold⟩
    · simp [published.1] at hs'
    · exact absurd hold notold
  | close _ q _ _ _ isOp get _ idle settled =>
    rcases get?_modify_cases get hp' with ⟨rfl, rfl⟩ | ⟨-, hold⟩
    · obtain rfl := mem_unique get hp
      exact ⟨isOp, idle, settled, rfl⟩
    · exact absurd hold notold
  | pay _ _ q _ _ _ _ _ _ getProject =>
    rcases get?_modify_cases getProject hp' with ⟨rfl, rfl⟩ | ⟨-, hold⟩
    · obtain rfl := mem_unique getProject hp
      simp only [Project.payReward] at hs'
      split at hs'
      · simp at hs'
      · exact absurd hs' hs
    · exact absurd hold notold
  | _ => exact absurd hp' notold

/-! ## Funding -/

/-- The escrow of every project is what its status says. -/
structure Funded (db : Db) : Prop where
  slots : ∀ id p, db.projects.get? id = some p → 0 < p.rewardSlots
  draft : ∀ id p, db.projects.get? id = some p → p.status = .draft → p.escrowQuota = 0
  spent : ∀ id p, db.projects.get? id = some p → p.status = .completed ∨ p.status = .closed →
    p.escrowQuota = 0
  nonneg : ∀ id p, db.projects.get? id = some p → 0 ≤ p.escrowQuota
  held : ∀ id p, db.projects.get? id = some p → p.status ≠ .draft → p.status ≠ .closed →
    p.escrowQuota = p.netRewardQuota * (p.rewardSlots - approvedCount db id)

theorem funded_empty (users : Table User) : Funded (.empty users) where
  slots _ _ h := nomatch h
  draft _ _ h := nomatch h
  spent _ _ h := nomatch h
  nonneg _ _ h := nomatch h
  held _ _ h := nomatch h

/-- A project that can pay a reward is running: nothing is left in the others. -/
theorem Funded.active_of_covered (hf : Funded db) {p : Project}
    (hp : db.projects.get? id = some p) (hpos : 0 < p.escrowQuota) : p.status.Active := by
  have hdra := hf.draft id p hp
  have hsp := hf.spent id p hp
  cases hs : p.status with
  | draft => exact absurd (hdra hs) hpos.ne'
  | published => exact .inl rfl
  | paused => exact .inr rfl
  | completed => exact absurd (hsp (.inl hs)) hpos.ne'
  | closed => exact absurd (hsp (.inr hs)) hpos.ne'

/-- Transitions keep the escrows funded. -/
theorem Transition.funded (h : Transition now op db db') (hl : Linked db) (hf : Funded db) :
    Funded db' where
  slots id p' hp' := by
    cases h.project_move hl hp' with
    | kept p get edit => exact edit.slots_pos (hf.slots id p get)
    | draft _ _ slots => exact slots
    | published _ _ _ _ _ _ slots => exact slots
    | closed p get _ _ _ slots => exact slots ▸ hf.slots id p get
    | paid p _ get _ eq => exact eq ▸ hf.slots id p get
  draft id p' hp' hs' := by
    cases h.project_move hl hp' with
    | kept p get edit =>
      rcases edit.status with hs | ⟨-, hs⟩
      · rw [edit.escrow]
        exact hf.draft id p get (hs ▸ hs')
      · exact absurd hs' hs.ne_draft
    | draft _ escrow => exact escrow
    | published _ _ _ status | closed _ _ _ status => simp [hs'] at status
    | paid p now _ status eq =>
      exact absurd hs' (eq ▸ (p.payReward_sameTerms now _ status).published)
  spent id p' hp' hs' := by
    cases h.project_move hl hp' with
    | kept p get edit =>
      rcases edit.status with hs | ⟨-, hs⟩
      · rw [edit.escrow]
        exact hf.spent id p get (hs ▸ hs')
      · rcases hs' with hs' | hs'
        · exact absurd hs' hs.not_spent.1
        · exact absurd hs' hs.not_spent.2
    | draft status | published _ _ _ status => simp [status] at hs'
    | closed _ _ _ _ escrow => exact escrow
    | paid p now get status eq positive covered =>
      have hact := hf.active_of_covered get (positive.trans_le covered)
      subst eq
      simp only [Project.payReward] at hs' ⊢
      split at hs'
      · assumption
      · rcases hs' with hs' | hs'
        · exact absurd hs' hact.not_spent.1
        · exact absurd hs' hact.not_spent.2
  nonneg id p' hp' := by
    cases h.project_move hl hp' with
    | kept p get edit => exact edit.escrow ▸ hf.nonneg id p get
    | draft _ escrow | closed _ _ _ _ escrow => exact escrow.ge
    | published _ _ _ _ escrow net slots => exact escrow ▸ (mul_pos net slots).le
    | paid _ _ _ _ eq _ covered =>
      subst eq
      exact sub_nonneg.2 covered
  held id p' hp' hdra hcl := by
    cases h.project_move hl hp' with
    | kept p get edit approved =>
      have hs : p.status ≠ .draft ∧ p.status ≠ .closed := by
        rcases edit.status with hs | ⟨hs, -⟩
        · exact ⟨hs ▸ hdra, hs ▸ hcl⟩
        · exact ⟨hs.ne_draft, hs.not_spent.2⟩
      rw [edit.escrow, edit.net, edit.slots hs.1, approved hs.1]
      exact hf.held id p get hs.1 hs.2
    | draft status => exact absurd status hdra
    | published _ _ _ _ escrow _ _ approved => rw [escrow, approved, sub_zero]
    | closed _ _ _ status => exact absurd status hcl
    | paid p now get status eq positive covered approved =>
      have hact := hf.active_of_covered get (positive.trans_le covered)
      have hheld := hf.held id p get hact.ne_draft hact.not_spent.2
      subst eq
      rw [approved]
      change p.escrowQuota - p.netRewardQuota = p.netRewardQuota * (p.rewardSlots - _)
      rw [hheld]
      ring

/-- The escrows are funded in every reachable state. -/
theorem funded_of_run {ok : Event → Db → Prop} {t : ℤ} {users : Table User} {c : Timed Db}
    (h : Run ok (start t users) c) : Funded c.state := by
  refine (Timed.invariant (P := fun _ db => Linked db ∧ Funded db) ?_ h
    ⟨linked_empty users, funded_empty users⟩).2
  rintro _ db e ⟨hl, hf⟩ - -
  have htra := step_transition e db
  exact ⟨htra.linked hl, htra.funded hl hf⟩

end LmmApi.Bounty
