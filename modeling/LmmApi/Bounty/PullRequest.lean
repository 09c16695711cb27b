import LmmApi.Bounty.Invariant

/-!
# Pull requests

A pull request should earn one reward of a bounty. Two links denote the same pull request
(`SamePull`) when their owners and repositories agree up to letter case and their numbers are equal
as integers: `pullRequestOf` reads this identity off a stored link, and every link that
`normalizeGithubEvidence` accepts has one.

`SubmitOpenSourceBountyChallenge` compares links as texts, and only with challenges that are
submitted or approved at the time. Where the text decides and no rejected challenge is paid whose
pull request another challenge took up meanwhile, no pull request is paid twice
(`pull_requests_unique`); with another spelling one is (`pull_request_paid_twice`).
-/

namespace LmmApi.Bounty

open Guarded Go List Option Table

variable {op : Op} {db : Db}

/-! ## The identity of a pull request -/

/-- The owner and the repository, in lower case, and the number of the pull request that a stored
link denotes. -/
def pullRequestOf (url : String) : Option (String × String × ℤ) :=
  match split url '/' with
  | ["https:", "", "github.com", owner, repository, "pull", number] =>
    (parseInt number).map fun n => (toLower owner, toLower repository, n)
  | _ => none

/-- Two stored links denote the same pull request. -/
def SamePull (url url' : String) : Prop :=
  ∃ id, pullRequestOf url = some id ∧ pullRequestOf url' = some id

theorem SamePull.symm {url url' : String} (h : SamePull url url') : SamePull url' url := by
  obtain ⟨id, h, h'⟩ := h
  exact ⟨id, h', h⟩

theorem isAlnum_ne_slash {c : Char} (h : isAlnum c = true) : c ≠ '/' := by
  rintro rfl
  simp [isAlnum] at h

theorem isGithubNameChar_ne_slash {c : Char} (h : isGithubNameChar c = true) : c ≠ '/' := by
  rintro rfl
  simp [isGithubNameChar, isAlnum] at h

/-- A GitHub name has no slash. -/
theorem slash_notMem_of_githubNamePattern {s : String} (h : githubNamePattern s = true) :
    '/' ∉ s.toList := by
  unfold githubNamePattern at h
  split at h
  · simp at h
  · rename_i c hc
    rw [hc, mem_singleton]
    exact (isAlnum_ne_slash h).symm
  · rename_i c rest _ hc
    simp only [Bool.and_eq_true, List.all_eq_true, decide_eq_true_eq] at h
    obtain ⟨⟨⟨hfst, hmid⟩, -⟩, hl⟩ := h
    rw [hc]
    intro hm
    rcases mem_cons.1 hm with heq | hm
    · exact isAlnum_ne_slash hfst heq.symm
    · rcases eq_nil_or_concat rest with rfl | ⟨_, _, rfl⟩
      · simp at hm
      · rw [concat_eq_append] at hm
        simp only [concat_eq_append, dropLast_concat, getLast?_append,
          getLast?_singleton, some_or, any_some] at hmid hl
        rcases mem_append.1 hm with hm | hm
        · exact isGithubNameChar_ne_slash (hmid _ hm) rfl
        · exact isAlnum_ne_slash hl (mem_singleton.1 hm).symm

theorem slash_notMem_of_parseDigits {l : List Char} {n : ℕ} (h : parseDigits l = some n) :
    '/' ∉ l := by
  unfold parseDigits at h
  split at h
  · rename_i hdig
    intro hm
    have := List.all_eq_true.1 hdig.2 _ hm
    simp at this
  · simp at h

/-- A number has no slash. -/
theorem slash_notMem_of_parseInt {s : String} (h : (parseInt s).isSome = true) :
    '/' ∉ s.toList := by
  obtain ⟨n, hn⟩ := isSome_iff_exists.1 h
  unfold parseInt at hn
  split at hn
  · rename_i l hl
    obtain ⟨_, hdig, -⟩ := bind_eq_some_iff.1 hn
    rw [hl]
    simp [slash_notMem_of_parseDigits hdig]
  · rename_i l hl
    obtain ⟨_, hdig, -⟩ := bind_eq_some_iff.1 hn
    rw [hl]
    simp [slash_notMem_of_parseDigits hdig]
  · obtain ⟨_, hdig, -⟩ := bind_eq_some_iff.1 hn
    exact slash_notMem_of_parseDigits hdig

/-- The text up to a slash is the first part. -/
theorem split_append_slash {s rest : String} (h : '/' ∉ s.toList) :
    split (s ++ "/" ++ rest) '/' = s :: split rest '/' := by
  have hlist : (s ++ "/" ++ rest).toList = s.toList ++ '/' :: rest.toList := by
    simp [String.toList_append]
  unfold split
  rw [hlist, splitOn_append_cons_self_of_not_mem h, map_cons, String.ofList_toList]

theorem split_of_notMem {s : String} (h : '/' ∉ s.toList) : split s '/' = [s] := by
  unfold split
  rw [splitOn_eq_singleton h, map_singleton, String.ofList_toList]

/-- A link in the normal form denotes a pull request. -/
theorem pullRequestOf_link {owner repository number : String} (hown : '/' ∉ owner.toList)
    (hrep : '/' ∉ repository.toList) (hnum : (parseInt number).isSome = true) :
    ∃ id, pullRequestOf ("https://github.com/" ++ owner ++ "/" ++ repository ++ "/" ++ "pull" ++
      "/" ++ number) = some id := by
  have hspl : split ("https://github.com/" ++ owner ++ "/" ++ repository ++ "/" ++ "pull" ++
      "/" ++ number) '/' = ["https:", "", "github.com", owner, repository, "pull", number] := by
    have hpar : "https://github.com/" ++ owner ++ "/" ++ repository ++ "/" ++ "pull" ++ "/" ++
        number = "https:" ++ "/" ++ ("" ++ "/" ++ ("github.com" ++ "/" ++ (owner ++ "/" ++
          (repository ++ "/" ++ ("pull" ++ "/" ++ number))))) := by
      apply String.toList_inj.1
      simp [String.toList_append]
    rw [hpar, split_append_slash (by decide), split_append_slash (by decide),
      split_append_slash (by decide), split_append_slash hown, split_append_slash hrep,
      split_append_slash (by decide), split_of_notMem (slash_notMem_of_parseInt hnum)]
  obtain ⟨n, hn⟩ := isSome_iff_exists.1 hnum
  refine ⟨(toLower owner, toLower repository, n), ?_⟩
  simp only [pullRequestOf, hspl, hn, map_some]

/-- A repository link is made of two GitHub names. -/
theorem normalizeGithubRepositoryUrl_eq_ok {raw url : String}
    (h : normalizeGithubRepositoryUrl raw = .ok url) :
    ∃ owner repository, githubNamePattern owner = true ∧ githubNamePattern repository = true ∧
      url = "https://github.com/" ++ owner ++ "/" ++ repository := by
  obtain ⟨u, -, h⟩ := bind_eq_ok.1 h
  split at h
  · simp only [require_bind, pure_eq_ok] at h
    obtain ⟨⟨hown, hrep⟩, rfl⟩ := h
    exact ⟨_, _, hown, hrep, rfl⟩
  · simp at h

/-- **Every accepted link denotes a pull request.** -/
theorem normalizeGithubEvidence_pull {raw repositoryUrl url : String}
    (h : normalizeGithubEvidence raw repositoryUrl "pull" = .ok url) :
    url = "" ∨ ∃ id, pullRequestOf url = some id := by
  dsimp only [normalizeGithubEvidence] at h
  split at h
  · exact .inl (pure_eq_ok.1 h).symm
  · obtain ⟨u, -, h⟩ := bind_eq_ok.1 h
    split at h
    · simp only [require_bind, orFail_bind, toOption_eq_some, pure_eq_ok] at h
      obtain ⟨-, hnum, _, hrep, -, rfl⟩ := h
      obtain ⟨_, _, hown, hnm, rfl⟩ := normalizeGithubRepositoryUrl_eq_ok hrep
      exact .inr (pullRequestOf_link (slash_notMem_of_githubNamePattern hown)
        (slash_notMem_of_githubNamePattern hnm) hnum)
    · simp at h

/-! ## The condition on steps -/

/-- The challenges whose pull request is taken. -/
def Challenge.Live (c : Challenge) : Prop := c.status = .submitted ∨ c.status = .approved
  deriving Decidable

/-- No link is submitted that denotes the pull request of a live challenge of the project in another
spelling. -/
def submitsKnownSpelling (e : Event) (db : Db) : Prop :=
  ∀ participant pid issue pull note, e.op = .submit participant pid issue pull note →
    ∀ p url, db.projects.get? pid = some p →
      normalizeGithubEvidence pull p.repositoryUrl "pull" = .ok url →
      ∀ j b, db.challenges.get? j = some b → b.projectId = pid → b.Live →
        SamePull b.pullRequestUrl url → b.pullRequestUrl = url

/-- No dispute on a rejected challenge is paid while another challenge of the project with the same
pull request is live. -/
def paysFreePullRequest (e : Event) (db : Db) : Prop :=
  ∀ admin did action resolution, e.op = .resolveDispute admin did action resolution →
    parseAction (trimSpace action) = some .pay →
    ∀ d c, db.disputes.get? did = some d → db.challenges.get? d.challengeId = some c →
      c.status = .rejected →
      ∀ j b, db.challenges.get? j = some b → j ≠ d.challengeId → b.projectId = c.projectId →
        b.Live → ¬SamePull b.pullRequestUrl c.pullRequestUrl

/-- The condition on a step. -/
def tellsPullRequestsApart (e : Event) (db : Db) : Prop :=
  submitsKnownSpelling e db ∧ paysFreePullRequest e db

/-! ## Live pull requests -/

/-- The two ways a challenge becomes live, from which it shares its pull request with no other live
challenge. -/
inductive Enters (op : Op) (db : Db) (id : ℕ) (c c' : Challenge) : Prop
  | submit (participant : ℕ) (issue pull note : String)
      (isOp : op = .submit participant c.projectId issue pull note)
      (last : db.challenges.last? (fun _ b => b.projectId = c.projectId ∧
        b.participantUserId = participant ∧ b.status = .accepted) = some (id, c))
  | appeal (admin did : ℕ) (action resolution : String) (d : Dispute)
      (isOp : op = .resolveDispute admin did action resolution)
      (get : db.disputes.get? did = some d) (challenge : d.challengeId = id)

/-- At most one challenge becomes live in a step. -/
theorem Enters.unique {i j : ℕ} {a a' b b' : Challenge} (hi : Enters op db i a a')
    (hj : Enters op db j b b') : i = j := by
  cases hi with
  | submit _ _ _ _ isOp last =>
    cases hj with
    | submit _ _ _ _ isOp' last' =>
      rw [isOp] at isOp'
      injection isOp' with hpar hpj
      rw [← hpar, ← hpj, last] at last'
      exact (Prod.mk.inj (some.inj last')).1
    | appeal _ _ _ _ _ isOp' => simp [isOp] at isOp'
  | appeal _ _ _ _ _ isOp get challenge =>
    cases hj with
    | submit _ _ _ _ isOp' => simp [isOp] at isOp'
    | appeal _ _ _ _ _ isOp' get' challenge' =>
      rw [isOp] at isOp'
      injection isOp' with _ hdid
      rw [← hdid, get] at get'
      rw [← challenge, ← challenge', some.inj get']

/-- A challenge that is live after a step was live with the same link, or became live and shares its
pull request with no live challenge. -/
theorem live_back {e : Event} (hok : tellsPullRequestsApart e db) {id : ℕ} {c c' : Challenge}
    (hc : db.challenges.get? id = some c) (hmove : ChallengeMove e.time e.op db id c c')
    (hlv : c'.Live) : (c.Live ∧ c'.pullRequestUrl = c.pullRequestUrl) ∨
      Enters e.op db id c c' ∧ ∀ j b, db.challenges.get? j = some b → j ≠ id →
        b.projectId = c.projectId → b.Live → ¬SamePull b.pullRequestUrl c'.pullRequestUrl := by
  cases hmove with
  | kept remark =>
    refine .inl ⟨?_, remark.pullRequest⟩
    unfold Challenge.Live at hlv ⊢
    rwa [remark.status] at hlv
  | submitted participant issue pull note isOp last _ _ _ evidence fresh =>
    refine .inr ⟨.submit participant issue pull note isOp last, ?_⟩
    intro j b hb hj hpj hbli hsa
    obtain ⟨p, hp, hurl⟩ := evidence
    have htext := hok.1 _ _ _ _ _ isOp p _ hp hurl j b hb hpj hbli hsa
    rcases fresh with hemp | hfr
    · -- The empty link denotes no pull request.
      obtain ⟨x, -, hx⟩ := hsa
      rw [hemp] at hx
      simp [pullRequestOf, split] at hx
    · obtain ⟨hsub, happ⟩ := hfr j b hb hj hpj htext
      rcases hbli with hs | hs
      · exact hsub hs
      · exact happ hs
  | released _ _ after => rcases after with hs | hs <;> simp [Challenge.Live, hs] at hlv
  | rejected _ _ after => simp [Challenge.Live, after] at hlv
  | paid same before =>
    rcases before with
      hsub | ⟨hrej, -, admin, did, action, resolution, d, isOp, hact, hd, hid, -⟩
    · exact .inl ⟨.inl hsub, same.pullRequest⟩
    · subst hid
      refine .inr ⟨.appeal admin did action resolution d isOp hd rfl, ?_⟩
      intro j b hb hj hpj hbli
      rw [same.pullRequest]
      exact hok.2 admin did action resolution isOp hact d c hd hc hrej j b hb hj hpj hbli

/-- No two live challenges of a project carry the same pull request, and every stored link is empty
or denotes one. -/
structure UniquePull (db : Db) : Prop where
  denotes : ∀ id c, db.challenges.get? id = some c →
    c.pullRequestUrl = "" ∨ ∃ x, pullRequestOf c.pullRequestUrl = some x
  unique : ∀ i j a b, db.challenges.get? i = some a → db.challenges.get? j = some b → i ≠ j →
    a.projectId = b.projectId → a.Live → b.Live → ¬SamePull a.pullRequestUrl b.pullRequestUrl

theorem uniquePull_step {e : Event} (hok : tellsPullRequestsApart e db) (hu : UniquePull db) :
    UniquePull (step e db) where
  denotes id c' hc' := by
    have h := step_transition e db
    rcases h.challenge_origin hc' with ⟨c, hc, -⟩ | ⟨p, hnew⟩
    · cases h.challenge_move hc hc' with
      | kept remark =>
        rw [remark.pullRequest]
        exact hu.denotes id c hc
      | submitted _ _ _ _ _ _ _ _ _ evidence =>
        obtain ⟨p, -, hurl⟩ := evidence
        exact normalizeGithubEvidence_pull hurl
      | released same | rejected same | paid same =>
        rw [same.pullRequest]
        exact hu.denotes id c hc
    · exact .inl hnew.noWork
  unique i j a' b' ha' hb' hij hpj hali hbli := by
    have h := step_transition e db
    -- A new challenge is not live, so both challenges are old.
    have old {k x'} (hx' : (step e db).challenges.get? k = some x') (hlv : x'.Live) :
        ∃ x, db.challenges.get? k = some x ∧ x.SameDeal x' := by
      rcases h.challenge_origin hx' with hold | ⟨p, hnew⟩
      · exact hold
      · simp [Challenge.Live, hnew.status] at hlv
    obtain ⟨a, ha, hade⟩ := old ha' hali
    obtain ⟨b, hb, hbde⟩ := old hb' hbli
    have hab : a.projectId = b.projectId := by rw [← hade.project, ← hbde.project, hpj]
    rcases live_back hok ha (h.challenge_move ha ha') hali with ⟨hal, hau⟩ | ⟨hae, haf⟩
    · rcases live_back hok hb (h.challenge_move hb hb') hbli with ⟨hbl, hbu⟩ | ⟨-, hbf⟩
      · rw [hau, hbu]
        exact hu.unique i j a b ha hb hij hab hal hbl
      · rw [hau]
        exact hbf i a ha hij hab hal
    · rcases live_back hok hb (h.challenge_move hb hb') hbli with ⟨hbl, hbu⟩ | ⟨hbe, -⟩
      · rw [hbu]
        exact fun hs => haf j b hb hij.symm hab.symm hbl hs.symm
      · exact absurd (hae.unique hbe) hij

/-- **No pull request is paid twice.** In a run that submits no other spelling of a live challenge's
pull request, and pays no rejected challenge whose pull request is live, no two approved challenges
of a project carry the same pull request; every stored link is empty or denotes one. -/
theorem pull_requests_unique {t : ℤ} {users : Table User} {c : Timed Db}
    (h : Run tellsPullRequestsApart (start t users) c) :
    (∀ i j a b, c.state.challenges.get? i = some a → c.state.challenges.get? j = some b → i ≠ j →
        a.projectId = b.projectId → a.status = .approved → b.status = .approved →
        ¬SamePull a.pullRequestUrl b.pullRequestUrl) ∧
      ∀ i a, c.state.challenges.get? i = some a →
        a.pullRequestUrl = "" ∨ ∃ x, pullRequestOf a.pullRequestUrl = some x := by
  have h₀ : UniquePull (.empty users) := by
    constructor
    · intro id c hc
      cases hc
    · intro i j a b ha
      cases ha
  have hu := Timed.invariant (P := fun _ db => UniquePull db)
    (fun _ db e hu _ hok => uniquePull_step hok hu) h h₀
  refine ⟨fun i j a b ha hb hij hproject has hbs => ?_, hu.denotes⟩
  exact hu.unique i j a b ha hb hij hproject (.inr has) (.inr hbs)

/-- The condition holds of every step while no challenge is live. -/
theorem tellsPullRequestsApart_of_none_live (e : Event)
    (h : ¬db.challenges.Any fun _ c => c.Live) : tellsPullRequestsApart e db := by
  constructor
  · intro _ _ _ _ _ _ _ _ _ _ j b hb _ hlv
    exact absurd (any_iff.2 ⟨j, b, hb, hlv⟩) h
  · intro _ _ _ _ _ _ _ _ _ _ _ j b hb _ _ hlv
    exact absurd (any_iff.2 ⟨j, b, hb, hlv⟩) h

/-- A bounty with a second slot. -/
def twoSlotDraft : DraftInput := { sampleDraft with rewardSlots := 2 }

/-- Two contributors submit pull requests, the second one with some link, and the owner approves both
challenges. -/
def paidEvents (link : String) : List Event :=
  [.at_ 1 (.createDraft 1 twoSlotDraft), .at_ 2 (.publish none 1 1),
    .at_ 3 (.accept 2 1 "alice"), .at_ 3 (.accept 3 1 "bob"),
    .at_ 4 (.submit 2 1 "" samplePull ""), .at_ 4 (.submit 3 1 "" link ""),
    .at_ 5 (.review 1 1 ⟨true, "", 5, "good"⟩), .at_ 5 (.review 1 2 ⟨true, "", 5, "good"⟩)]

def otherPull : String := "https://github.com/a/b/pull/3"

/-- Two challenges that were paid for different pull requests. -/
theorem pull_requests_unique_paid :
    let c := sampleRun (paidEvents otherPull)
    ∃ a b, c.state.challenges.get? 1 = some a ∧ c.state.challenges.get? 2 = some b ∧
      a.projectId = b.projectId ∧ a.status = .approved ∧ b.status = .approved ∧
      ¬SamePull a.pullRequestUrl b.pullRequestUrl := by
  intro c
  have hpaid : ∀ id ∈ [1, 2], ∃ a ∈ c.state.challenges.get? id, a.projectId = 1 ∧
      a.status = .approved := by
    decide +kernel
  obtain ⟨a, ha, haproject, hastatus⟩ := hpaid 1 (by decide)
  obtain ⟨b, hb, hbproject, hbstatus⟩ := hpaid 2 (by decide)
  have hproject := haproject.trans hbproject.symm
  refine ⟨a, b, ha, hb, hproject, hastatus, hbstatus, ?_⟩
  refine (pull_requests_unique (Timed.reaches_runList_of (start 0 sampleUsers) _ (by decide) ?_)).1 1 2
    a b ha hb (by decide) hproject hastatus hbstatus
  intro n hn
  by_cases hearly : n < 5
  · -- Before the first five steps no challenge is live.
    refine tellsPullRequestsApart_of_none_live _ ?_
    revert n
    decide +kernel
  obtain rfl | rfl | rfl : n = 5 ∨ n = 6 ∨ n = 7 := by
    change n < 8 at hn
    omega
  · -- The second submission comes while the first challenge is live.
    refine ⟨?_, nofun⟩
    rintro _ _ _ _ _ ⟨⟩ p url hp hurl j b hb - hlive ⟨x, hbx, hx⟩
    let db := (sampleRun ((paidEvents otherPull).take 5)).state
    have hother : ∀ p ∈ db.projects.get? 1,
        ∀ url ∈ (normalizeGithubEvidence otherPull p.repositoryUrl "pull").toOption,
        ¬db.challenges.Any fun _ b =>
          b.Live ∧ pullRequestOf b.pullRequestUrl = pullRequestOf url := by
      decide +kernel
    exact absurd (any_iff.2 ⟨j, b, hb, hlive, hbx.trans hx.symm⟩)
      (hother p hp url (toOption_eq_some.2 hurl))
  -- The last steps are reviews.
  · exact ⟨nofun, nofun⟩
  · exact ⟨nofun, nofun⟩

/-- **A pull request can be paid twice**: of two contributors one writes its number `2`, the other
`02`, and both challenges are approved. -/
theorem pull_request_paid_twice : ∃ c : Timed Db, Run Timed.anyStep (start 0 sampleUsers) c ∧
      ∃ a b, c.state.challenges.get? 1 = some a ∧ c.state.challenges.get? 2 = some b ∧
        a.projectId = b.projectId ∧ a.status = .approved ∧ b.status = .approved ∧
        SamePull a.pullRequestUrl b.pullRequestUrl := by
  -- one evaluation of the run for both challenges
  let run := sampleRun (paidEvents "https://github.com/a/b/pull/02")
  have hpaid : ∀ id ∈ [1, 2], ∃ c ∈ run.state.challenges.get? id, c.projectId = 1 ∧
      c.status = .approved ∧ pullRequestOf c.pullRequestUrl = some ("a", "b", 2) := by
    decide +kernel
  obtain ⟨a, ha, haproject, hastatus, hapull⟩ := hpaid 1 (by decide)
  obtain ⟨b, hb, hbproject, hbstatus, hbpull⟩ := hpaid 2 (by decide)
  exact ⟨run, Timed.reaches_runList _ _ (by decide), a, b, ha, hb,
    haproject.trans hbproject.symm, hastatus, hbstatus, _, hapull, hbpull⟩

end LmmApi.Bounty
