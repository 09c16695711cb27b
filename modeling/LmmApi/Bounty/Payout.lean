import LmmApi.Bounty.Ledger

/-!
# Payouts

Two operations pay the reward of a challenge: the owner's approval and an administrator's resolution
of the contributor's dispute. Whatever their order, a challenge is paid at most once: it is approved
exactly when the ledger has one payout row for it, and an approved challenge gets no other
(`single_payout`).
-/

namespace LmmApi.Bounty

open List Option Table

variable {now : ℤ} {op : Op} {db db' : Db}

/-- The rows that pay a reward. -/
def Ledger.IsPayout (l : Ledger) : Prop :=
  l.kind = .rewardTransfer ∨ l.kind = .disputeRewardTransfer
  deriving Decidable

/-- The number of payout rows of a challenge. -/
def payoutCount (db : Db) (challengeId : ℕ) : ℤ :=
  db.ledgers.count fun _ l => l.IsPayout ∧ l.challengeId = challengeId

/-! ## Rows that pay nothing -/

variable {env : Env} {owner project id : ℕ} {l : Ledger} {ok : Event → Db → Prop} {c : Timed Db}

theorem not_isPayout_of_mem_publicationEntries {recipient : ℕ} {charge : PublicationCharge}
    (h : l ∈ publicationEntries env owner project recipient charge) : ¬l.IsPayout := by
  unfold publicationEntries at h
  rcases mem_cons.1 h with rfl | h
  · simp [Ledger.IsPayout]
  · split at h
    · rw [mem_singleton.1 h]
      simp [Ledger.IsPayout]
    · simp at h

theorem not_isPayout_of_mem_refundEntries {refund : ℤ}
    (h : l ∈ refundEntries env owner project refund) : ¬l.IsPayout := by
  unfold refundEntries at h
  split at h
  · rw [mem_singleton.1 h]
    simp [Ledger.IsPayout]
  · simp at h

theorem payoutCount_insertAll {entries : List Ledger} (h : ∀ l ∈ entries, ¬l.IsPayout)
    (ledgers : Table Ledger) (id : ℕ) :
    (insertAll ledgers entries).count (fun _ l => l.IsPayout ∧ l.challengeId = id) =
      ledgers.count fun _ l => l.IsPayout ∧ l.challengeId = id := by
  rw [insertAll, Table.count, sum_foldl_insert, Table.count, add_eq_left]
  refine List.sum_eq_zero fun n hn => ?_
  obtain ⟨l, hl, rfl⟩ := mem_map.1 hn
  exact if_neg fun hp => h l hl hp.1

/-! ## Payouts across a transition -/

/-- What a transition does to the payouts of a challenge: nothing, or it pays and approves it. -/
inductive PayoutMove (db db' : Db) (id : ℕ) (c c' : Challenge) : Prop
  | none (status : c'.status = .approved ↔ c.status = .approved)
      (count : payoutCount db' id = payoutCount db id)
  | paid (before : c.status ≠ .approved) (after : c'.status = .approved)
      (count : payoutCount db' id = payoutCount db id + 1)
      (moved : Moved db.users db'.users [(c.participantUserId, c.rewardQuota)])

theorem Transition.payout_move (h : Transition now op db db') {c c' : Challenge}
    (hc : db.challenges.get? id = some c) (hc' : db'.challenges.get? id = some c') :
    PayoutMove db db' id c c' := by
  have old : db.challenges.get? id = some c' → payoutCount db' id = payoutCount db id →
      PayoutMove db db' id c c' := by
    intro hold hcnt
    obtain rfl := mem_unique hc hold
    exact .none Iff.rfl hcnt
  -- An update of the challenge `j` that neither pays nor approves.
  have modified {j b} (f : Challenge → Challenge) (hb : db.challenges.get? j = some b)
      (hg : (db.challenges.modify j f).get? id = some c')
      (hst : (f b).status = .approved ↔ b.status = .approved)
      (hcnt : payoutCount db' id = payoutCount db id) : PayoutMove db db' id c c' := by
    rcases get?_modify_cases hb hg with ⟨rfl, rfl⟩ | ⟨-, hold⟩
    · obtain rfl := mem_unique hb hc
      exact .none hst hcnt
    · exact old hold hcnt
  cases h with
  | publish => exact old hc' (payoutCount_insertAll
      (fun _ => not_isPayout_of_mem_publicationEntries) db.ledgers id)
  | close => exact old hc' (payoutCount_insertAll
      (fun _ => not_isPayout_of_mem_refundEntries) db.ledgers id)
  | accept =>
    rcases get?_insert_cases hc' with ⟨rfl, -⟩ | hold
    · simp at hc
    · exact old hold rfl
  | submit _ _ f _ _ _ _ _ _ get _ _ before after | reject _ _ f get _ before after =>
    exact modified f get hc' (by simp [before, after]) rfl
  | release _ _ f get _ before after =>
    refine modified f get hc' ?_ rfl
    rcases before with hs | hs <;> rcases after with hr | hr <;> simp [hs, hr]
  | remark _ _ f get remark => exact modified f get hc' (by rw [remark.status]) rfl
  | tip _ _ f entry _ get remark _ isTip =>
    refine modified f get hc' (by rw [remark.status]) ?_
    have hent : ¬(entry.IsPayout ∧ entry.challengeId = id) := by simp [Ledger.IsPayout, isTip.1]
    exact (Table.count_insert db.ledgers entry).trans (by rw [if_neg hent, add_zero]; rfl)
  | pay _ b _ _ entry _ _ _ get _ payable _ after _ _ isPayout _ moved =>
    have hcnt := Table.count_insert (p := fun _ l => l.IsPayout ∧ l.challengeId = id) db.ledgers
      entry
    rcases get?_modify_cases get hc' with ⟨rfl, rfl⟩ | ⟨hne, hold⟩
    · obtain rfl := mem_unique get hc
      rw [if_pos ⟨isPayout.kind, isPayout.challenge⟩] at hcnt
      exact .paid payable.ne_approved after hcnt moved
    · have hoth : entry.challengeId ≠ id := isPayout.challenge ▸ hne.symm
      rw [if_neg fun hp => hoth hp.2, add_zero] at hcnt
      exact old hold hcnt
  | _ => exact old hc' rfl

/-- A payout row after a transition was there, or pays a challenge that was not approved. -/
theorem Transition.payout_origin (h : Transition now op db db') {j : ℕ}
    (hl : db'.ledgers.get? j = some l) (hp : l.IsPayout) : db.ledgers.get? j = some l ∨
      ∃ c, db.challenges.get? l.challengeId = some c ∧ c.status ≠ .approved ∧
        PayoutEntry l.challengeId c l := by
  rcases h.ledger_origin hl with hold | ⟨_, -, -, hk⟩ | ⟨_, _, -, -, hk⟩ | ⟨c, hc, hpay, hent⟩
  · exact .inl hold
  · rcases hk with hk | hk | ⟨hk, -⟩ <;> simp [Ledger.IsPayout, hk] at hp
  · simp [Ledger.IsPayout, hk] at hp
  · exact .inr ⟨c, hc, hpay.ne_approved, hent⟩

/-! ## Paid once -/

/-- Approved challenges have one payout row and the others none, and a payout row carries the reward
to the participant. -/
structure PaidOnce (db : Db) : Prop where
  count : ∀ id c, db.challenges.get? id = some c →
    payoutCount db id = if c.status = .approved then 1 else 0
  rows : ∀ j l, db.ledgers.get? j = some l → l.IsPayout →
    ∃ c, db.challenges.get? l.challengeId = some c ∧ l.quota = c.rewardQuota ∧
      l.counterpartyUserId = c.participantUserId

theorem paidOnce_empty (users : Table User) : PaidOnce (.empty users) where
  count _ _ h := nomatch h
  rows _ _ h := nomatch h

theorem Transition.paidOnce (h : Transition now op db db') (hp : PaidOnce db) : PaidOnce db' where
  count id c' hc' := by
    rcases h.challenge_origin hc' with ⟨c, hc, -⟩ | ⟨q, hnew⟩
    · cases h.payout_move hc hc' with
      | none status count =>
        rw [count, hp.count id c hc]
        simp only [status]
      | paid before after count =>
        rw [count, hp.count id c hc, if_neg before, if_pos after, zero_add]
    · -- A payout row of the new challenge would be older than the challenge.
      have hn : payoutCount db' id = 0 := by
        refine count_eq_zero_iff.2 fun j l hl hpay => ?_
        have hmis : db.challenges.get? l.challengeId = none := by rw [hpay.2, hnew.key, get?_next]
        rcases h.payout_origin hl hpay.1 with hold | ⟨c, hc, -⟩
        · obtain ⟨c, hc, -⟩ := hp.rows j l hold hpay.1
          simp [hmis] at hc
        · simp [hmis] at hc
      simp [hn, hnew.status]
  rows j l hl hpay := by
    have persists {c} (hc : db.challenges.get? l.challengeId = some c)
        (hquo : l.quota = c.rewardQuota) (hu : l.counterpartyUserId = c.participantUserId) :
        ∃ c', db'.challenges.get? l.challengeId = some c' ∧ l.quota = c'.rewardQuota ∧
          l.counterpartyUserId = c'.participantUserId := by
      obtain ⟨c', hc', hdeal, -⟩ := h.challenge_persists hc
      exact ⟨c', hc', hquo.trans hdeal.reward.symm, hu.trans hdeal.participant.symm⟩
    rcases h.payout_origin hl hpay with hold | ⟨c, hc, -, hent⟩
    · obtain ⟨c, hc, hquo, hu⟩ := hp.rows j l hold hpay
      exact persists hc hquo hu
    · exact persists hc hent.quota hent.counterparty

theorem paidOnce_of_run {t : ℤ} {users : Table User}
    (h : Run ok (start t users) c) : PaidOnce c.state :=
  Timed.invariant (P := fun _ db => PaidOnce db)
    (fun _ db e hp _ _ => (step_transition e db).paidOnce hp) h (paidOnce_empty users)

/-- An approved challenge stays approved along every run, and gets no payout row that it did not
have. -/
theorem approved_persists {c' : Timed Db} (h : Run ok c c')
    {b : Challenge} (hb : c.state.challenges.get? id = some b) (hs : b.status = .approved) :
    (∃ b', c'.state.challenges.get? id = some b' ∧ b'.status = .approved) ∧
      ∀ j l, c'.state.ledgers.get? j = some l → l.IsPayout → l.challengeId = id →
        c.state.ledgers.get? j = some l := by
  refine Timed.invariant (P := fun _ db =>
    (∃ b', db.challenges.get? id = some b' ∧ b'.status = .approved) ∧
      ∀ j l, db.ledgers.get? j = some l → l.IsPayout → l.challengeId = id →
        c.state.ledgers.get? j = some l) ?_ h ⟨⟨b, hb, hs⟩, fun _ _ hl _ _ => hl⟩
  rintro _ db e ⟨⟨b', hb', hs'⟩, hrs⟩ - -
  have ht := step_transition e db
  obtain ⟨b'', hb'', -, hst⟩ := ht.challenge_persists hb'
  refine ⟨⟨b'', hb'', hst hs'⟩, fun j l hl hpay hid => ?_⟩
  rcases ht.payout_origin hl hpay with hold | ⟨a, ha, hne, -⟩
  · exact hrs j l hold hpay hid
  · rw [hid] at ha
    obtain rfl := mem_unique ha hb'
    exact absurd hs' hne

/-- **A challenge is paid once.** In every reachable state a challenge is approved exactly when the
ledger has one payout row for it, and such a row carries the challenge's reward to its participant.
The step that approves a challenge moves its reward into the participant's wallet and nothing else,
and all wallets are what the ledger's rows, each counted once, make of the first ones. An approved
challenge stays approved and gets no other payout. -/
theorem single_payout {t : ℤ} {users : Table User} {c : Timed Db}
    (h : Run Timed.anyStep (start t users) c) :
    (∀ id b, c.state.challenges.get? id = some b →
        (b.status = .approved ↔ payoutCount c.state id = 1) ∧
        (∀ j l, c.state.ledgers.get? j = some l → l.IsPayout → l.challengeId = id →
          l.quota = b.rewardQuota ∧ l.counterpartyUserId = b.participantUserId) ∧
        (∀ e b', (step e c.state).challenges.get? id = some b' → b.status ≠ .approved →
          b'.status = .approved → ∀ u, walletOf (step e c.state).users u =
            walletOf c.state.users u + if u = b.participantUserId then b.rewardQuota else 0) ∧
        (b.status = .approved → ∀ c', Run Timed.anyStep c c' →
          (∃ b', c'.state.challenges.get? id = some b' ∧ b'.status = .approved) ∧
            ∀ j l, c'.state.ledgers.get? j = some l → l.IsPayout → l.challengeId = id →
              c.state.ledgers.get? j = some l)) ∧
      ∀ u, walletOf c.state.users u =
        walletOf users u + c.state.ledgers.sum fun _ l => l.walletEffect u := by
  have hp := paidOnce_of_run h
  refine ⟨fun id b hb => ⟨?_, ?_, ?_, ?_⟩, (accounts_of_run h).wallet⟩
  · rw [hp.count id b hb]
    split
    · simp_all
    · simp_all
  · intro j l hl hpay hid
    obtain ⟨a, ha, hquota, huser⟩ := hp.rows j l hl hpay
    rw [hid] at ha
    obtain rfl := mem_unique ha hb
    exact ⟨hquota, huser⟩
  · intro e b' hb' hbefore hafter u
    cases (step_transition e c.state).payout_move hb hb' with
    | none status => exact absurd (status.1 hafter) hbefore
    | paid _ _ _ moved =>
      rw [moved.each u]
      simp
  · intro hs c' hrun
    exact approved_persists hrun hb hs

/-- A challenge that was rejected, appealed, paid by an administrator, and is approved with one
payout row. -/
theorem single_payout_appealed :
    let c := sampleRun [.at_ 1 (.createDraft 1 sampleDraft), .at_ 2 (.publish none 1 1),
      .at_ 3 (.accept 2 1 "alice"), .at_ 4 (.submit 2 1 sampleIssue samplePull ""),
      .at_ 5 (.review 1 1 ⟨false, "", 1, "no"⟩),
      .at_ 6 (.openDispute 2 1 "other" "the work is finished"),
      .at_ 7 (.resolveDispute 4 1 "pay" "the work meets the rules")]
    ∃ b, c.state.challenges.get? 1 = some b ∧ b.status = .approved ∧ payoutCount c.state 1 = 1 := by
  intro c
  obtain ⟨b, hb, hs⟩ : ∃ b ∈ c.state.challenges.get? 1, b.status = .approved := by decide +kernel
  have hrun : Run Timed.anyStep (start 0 sampleUsers) c := Timed.reaches_runList _ _ (by decide)
  exact ⟨b, hb, hs, ((single_payout hrun).1 1 b hb).1.1 hs⟩

end LmmApi.Bounty
