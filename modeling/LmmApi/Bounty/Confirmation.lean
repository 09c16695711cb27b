import LmmApi.Bounty.Mcp

/-!
# Confirmations are used once

Every mutation that a confirmed call commits is listed in the history, and a confirmation leads to
at most one of them: the transaction that mutates also consumes the confirmation, and nothing makes
it usable again. `McpMove` says what a call can do, `Bound` is the invariant, and `Dead` tells of a
confirmation that no call can use any more; one becomes dead when its own user and tool present it
with other arguments.
-/

namespace LmmApi.Bounty

open Guarded Go Function List Option

variable {env : Env} {op : Op} {user : ℕ} {operation : ConfirmedOperation} {t : ℤ}

/-! ## Operations without a mutation -/

/-- An outcome without a mutation comes with the store as it was. -/
def Kept (db : Db) (r : Outcome × Db) : Prop := r.1.isMutation = false → r.2 = db

variable {s : McpStore} {e : McpEvent} {c : Confirmation} {tx : Db → Tx}

/-- **Only the repeated resolution of a dispute does nothing**, and it changes nothing. -/
theorem prepare_kept (hop : op.confirmedUser = some user)
    (h : op.prepare env = .ok tx) (db : Db) : Yields (Kept db) (tx db) := by
  -- An outcome that tells of a mutation has nothing to show.
  have mutates {r : Outcome × Db} (hr : r.1.isMutation = true) : Kept db r := by
    intro hnot
    simp [hr] at hnot
  cases op
  case' review | rate | tip => obtain ⟨_, -, h⟩ := bind_eq_ok.1 h
  case' openDispute | resolveDispute => obtain ⟨⟨_, _⟩, -, h⟩ := bind_eq_ok.1 h
  case createDraft | updateDraft | updateContent | setPaused | setArchived | accept | submit =>
    simp [Op.confirmedUser] at hop
  all_goals obtain rfl := pure_eq_ok.1 h
  case' deleteDraft => unfold deleteOpenSourceBountyDraftTx
  case' publish => unfold publishOpenSourceBountyTx
  case' close => unfold closeOpenSourceBountyTx
  case' withdraw => unfold withdrawOpenSourceBountyChallengeTx
  case' cancel => unfold cancelOpenSourceBountyChallengeTx
  case' review => unfold reviewOpenSourceBountyChallengeTx
  case' rate => unfold rateOpenSourceBountyOwnerTx
  case' openDispute => unfold openOpenSourceBountyDisputeTx
  case' resolveDispute => unfold resolveOpenSourceBountyDisputeTx
  all_goals repeat with_reducible refine Yields.bind fun _ => ?_
  case review =>
    split
    · unfold approveChallenge
      repeat with_reducible refine Yields.bind fun _ => ?_
      exact Yields.pure (mutates rfl)
    · exact Yields.pure (mutates rfl)
  case resolveDispute =>
    split
    · unfold settleDispute
      repeat with_reducible refine Yields.bind fun _ => ?_
      split
      · unfold payDispute
        repeat with_reducible refine Yields.bind fun _ => ?_
        exact Yields.pure (mutates rfl)
      · exact Yields.pure (mutates rfl)
    · repeat with_reducible refine Yields.bind fun _ => ?_
      exact Yields.pure fun _ => rfl
  all_goals exact Yields.pure (mutates rfl)

/-! ## What a call can do -/

theorem findConfirmation_eq_some : s.findConfirmation user operation = some c ↔
      s.confirmations operation.state = some c ∧ c.userId = user ∧
        c.toolName = operation.toolName := by
  simp [McpStore.findConfirmation, filter_eq_some_iff]

/-- A confirmation that its user may use with these arguments. -/
structure Usable (now : ℤ) (user : ℕ) (operation : ConfirmedOperation) (s : McpStore)
    (c : Confirmation) : Prop where
  get : s.confirmations operation.state = some c
  user : c.userId = user
  tool : c.toolName = operation.toolName
  unused : c.consumedAt = 0
  current : now ≤ c.expiresAt
  payload : c.payloadHash = operation.payloadHash

theorem usable_of_validate {u : Unit}
    (h : validateOpenSourceBountyMCPConfirmationTx t user operation s = .ok u) :
    ∃ c, Usable t user operation s c := by
  simp only [validateOpenSourceBountyMCPConfirmationTx, eq_ok, findConfirmation_eq_some, not_or,
    not_not, not_lt] at h
  obtain ⟨c, ⟨hg, hu, htool⟩, hunu, hcur, hpay⟩ := h
  exact ⟨c, hg, hu, htool, hunu, hcur, hpay⟩

/-- The consumption of a confirmation. -/
theorem consume_cases (now : ℤ) (user : ℕ) (operation : ConfirmedOperation) (s : McpStore) :
    (consumeOpenSourceBountyMCPConfirmation now user operation s).2 = s ∨
      ∃ c, s.confirmations operation.state = some c ∧
        (consumeOpenSourceBountyMCPConfirmation now user operation s).2 =
          s.putConfirmation operation.state { c with consumedAt := now } := by
  unfold consumeOpenSourceBountyMCPConfirmation
  split
  · exact .inl rfl
  · rename_i c hc
    split
    · exact .inl rfl
    · exact .inr ⟨c, (findConfirmation_eq_some.1 hc).1, rfl⟩

/-- What a confirmed call does to the store. -/
inductive CallEffect (now : ℤ) (user : ℕ) (operation : ConfirmedOperation) (s : McpStore) :
    Except Failure Outcome × McpStore → Prop
  | failed (failure : Failure) : CallEffect now user operation s (.error failure, s)
  | spent (failure : Failure) (c : Confirmation)
      (get : s.confirmations operation.state = some c) :
      CallEffect now user operation s
        (.error failure, s.putConfirmation operation.state { c with consumedAt := now })
  | idle (outcome : Outcome) (idle : outcome.isMutation = false) :
      CallEffect now user operation s (.ok outcome, s)
  | committed (outcome : Outcome) (db : Db) (c : Confirmation) (row : McpOperation)
      (mutation : outcome.isMutation = true) (usable : Usable now user operation s c)
      (free : s.operations operation.state = none) :
      CallEffect now user operation s (.ok outcome,
        { db
          confirmations := Function.update s.confirmations operation.state
            (some { c with consumedAt := now })
          operations := Function.update s.operations operation.state (some row) })

theorem confirmedCall_effect (hop : op.confirmedUser = some user) (s : McpStore) :
    CallEffect env.now user operation s (confirmedCall env user operation op s) := by
  unfold confirmedCall
  cases htx : op.prepare env with
  | error failure => exact .failed failure
  | ok tx =>
    cases hcall : confirmedTx env.now user operation tx s with
    | error failure =>
      simp only [hcall]
      split
      · rcases consume_cases env.now user operation s with hs | ⟨c, hc, hsp⟩
        · rw [hs]
          exact .failed failure
        · rw [hsp]
          exact .spent failure c hc
      · exact .failed failure
    | ok r =>
      obtain ⟨_, s'⟩ := r
      simp only [hcall]
      simp only [confirmedTx, bind_eq_ok, Prod.exists] at hcall
      obtain ⟨_, hval, outcome', db, hdb, hr⟩ := hcall
      obtain ⟨c, husa⟩ := usable_of_validate hval
      cases hmut : outcome'.isMutation with
      | false =>
        obtain rfl : db = s.db := prepare_kept hop htx s.db (outcome', db) hdb hmut
        simp only [hmut, Bool.false_eq_true, if_false, pure_eq_ok, Prod.mk.injEq] at hr
        obtain ⟨rfl, rfl⟩ := hr
        exact .idle outcome' hmut
      | true =>
        simp only [hmut, if_true, completeOpenSourceBountyMCPOperationTx, eq_ok,
          filter_eq_some_iff, findConfirmation_eq_some] at hr
        obtain ⟨_, ⟨hfr, c', ⟨⟨hc', -⟩, -⟩, rfl⟩, rfl, rfl⟩ := hr
        obtain rfl := mem_unique husa.get hc'
        exact .committed outcome' db c _ hmut husa (by simpa using hfr)

/-- **What a step can do** to the confirmations, the operation rows and the history. -/
inductive McpMove (e : McpEvent) (s : McpState) : McpState → Prop
  | keep (db : Db) (isCall : (∃ operation op, e.action = .call operation op) → db = s.store.db) :
      McpMove e s { s with store := { s.store with db } }
  | issue (state : String) (user : ℕ) (toolName payloadHash : String)
      (isCreate : e.action = .create state user toolName payloadHash) :
      McpMove e s
        { s with
          store := createOpenSourceBountyMCPConfirmation e.time state user toolName payloadHash
            s.store
          issued := Function.update s.issued state
            (some (newConfirmation e.time user toolName payloadHash)) }
  | spend (state : String) (c : Confirmation) (get : s.store.confirmations state = some c) :
      McpMove e s { s with store := s.store.putConfirmation state { c with consumedAt := e.time } }
  | commit (operation : ConfirmedOperation) (op : Op) (user : ℕ) (db : Db) (c : Confirmation)
      (row : McpOperation) (isCall : e.action = .call operation op)
      (usable : Usable e.time user operation s.store c)
      (free : s.store.operations operation.state = none) :
      McpMove e s
        { s with
          store :=
            { db
              confirmations := Function.update s.store.confirmations operation.state
                (some { c with consumedAt := e.time })
              operations := Function.update s.store.operations operation.state (some row) }
          log := s.log ++
            [⟨operation.state, user, operation.toolName, operation.payloadHash, e.time, op⟩] }

theorem mcpStep_move (e : McpEvent) (s : McpState) : McpMove e s (mcpStep e s) := by
  unfold mcpStep
  cases hact : e.action with
  | create state user toolName payloadHash => exact .issue state user toolName payloadHash hact
  | plain =>
    refine .keep _ ?_
    rintro ⟨operation, op', hcall⟩
    simp [hact] at hcall
  | consume user operation =>
    simp only
    rcases consume_cases e.time user operation s.store with hs | ⟨c, hc, hsp⟩
    · rw [hs]
      exact .keep s.store.db fun _ => rfl
    · rw [hsp]
      exact .spend operation.state c hc
  | call operation op =>
    cases hu : op.confirmedUser with
    | none =>
      simp only [hu]
      exact .keep s.store.db fun _ => rfl
    | some user =>
      simp only [hu]
      have heff := @confirmedCall_effect e.env op user operation hu s.store
      generalize confirmedCall e.env user operation op s.store = r at heff ⊢
      cases heff with
      | failed => exact .keep s.store.db fun _ => rfl
      | spent _ c get => exact .spend operation.state c get
      | idle _ idle =>
        simp only [McpState.record, idle]
        exact .keep s.store.db fun _ => rfl
      | committed _ db c row mutation usable free =>
        simp only [McpState.record, mutation, if_true]
        exact .commit operation op user db c row hact usable free

/-! ## The invariant -/

/-- The confirmations, the operation rows and the history agree. -/
structure Bound (s : McpState) : Prop where
  /-- A confirmation is as it was created, except for its consumption. -/
  rows : ∀ id c, s.store.confirmations id = some c → ∃ c₀, s.issued id = some c₀ ∧
    c = { c₀ with consumedAt := c.consumedAt }
  /-- A mutation was made by the confirmation's user with its tool and arguments, in time. -/
  made : ∀ m ∈ s.log, ∃ c₀, s.issued m.state = some c₀ ∧ m.userId = c₀.userId ∧
    m.toolName = c₀.toolName ∧ m.payloadHash = c₀.payloadHash ∧ m.time ≤ c₀.expiresAt
  /-- The confirmation of a mutation is consumed. -/
  spent : ∀ m ∈ s.log, ∀ c, s.store.confirmations m.state = some c → c.consumedAt ≠ 0
  /-- The operation rows are those of the mutations. -/
  recorded : ∀ id, (s.store.operations id).isSome ↔ ∃ m ∈ s.log, m.state = id
  once : (s.log.map Mutation.state).Nodup

variable {id : String}

/-- A confirmation after a creation: the new one, or one that was there. -/
theorem create_confirmations {now : ℤ} {state : String} {toolName payloadHash : String}
    (h : (createOpenSourceBountyMCPConfirmation now state user toolName payloadHash
      s).confirmations id = some c) :
    id = state ∧ c = newConfirmation now user toolName payloadHash ∨
      s.confirmations id = some c := by
  have hswe {c} (hc : (s.sweep now).confirmations id = some c) : s.confirmations id = some c :=
    (filter_eq_some_iff.1 hc).1
  simp only [createOpenSourceBountyMCPConfirmation] at h
  split at h
  · exact .inr (hswe h)
  · by_cases hid : id = state
    · subst hid
      simp only [McpStore.putConfirmation, update_self, some.injEq] at h
      exact .inl ⟨rfl, h.symm⟩
    · simp only [McpStore.putConfirmation, update_of_ne hid] at h
      exact .inr (hswe h)

theorem create_operations (now : ℤ) (state toolName payloadHash : String) (s : McpStore) :
    (createOpenSourceBountyMCPConfirmation now state user toolName payloadHash s).operations =
      s.operations := by
  simp only [createOpenSourceBountyMCPConfirmation]
  split <;> rfl

/-- A confirmation after one of them is consumed. -/
theorem confirmation_of_update {f : String → Option Confirmation} {state : String}
    {c c' : Confirmation} (hc : f state = some c)
    (h : Function.update f state (some { c with consumedAt := t }) id = some c') :
    id = state ∧ c' = { c with consumedAt := t } ∨ id ≠ state ∧ f id = some c' := by
  by_cases hid : id = state
  · subst hid
    rw [update_self, some.injEq] at h
    exact .inl ⟨rfl, h.symm⟩
  · rw [update_of_ne hid] at h
    exact .inr ⟨hid, h⟩

/-- Consuming a confirmation keeps what it is bound to. -/
theorem rows_of_update {s : McpState} (hb : Bound s) {state : String}
    (hc : s.store.confirmations state = some c) {c' : Confirmation}
    (h : Function.update s.store.confirmations state (some { c with consumedAt := t }) id =
      some c') : ∃ c₀, s.issued id = some c₀ ∧ c' = { c₀ with consumedAt := c'.consumedAt } := by
  rcases confirmation_of_update hc h with ⟨rfl, rfl⟩ | ⟨-, h⟩
  · obtain ⟨c₀, hiss, hbou⟩ := hb.rows id c hc
    refine ⟨c₀, hiss, ?_⟩
    rw [hbou]
  · exact hb.rows id c' h

theorem McpMove.bound {s s' : McpState} (h : McpMove e s s') (hb : Bound s)
    (hfr : issuesFresh e s) (hpos : 0 < e.time) : Bound s' := by
  cases h with
  | keep => exact ⟨hb.rows, hb.made, hb.spent, hb.recorded, hb.once⟩
  | issue state user toolName payloadHash isCreate =>
    have hn := hfr state user toolName payloadHash isCreate
    -- What is issued under another state stays, and nothing was issued under this one.
    have hold : ∀ {id c₀}, s.issued id = some c₀ → id ≠ state := by
      rintro id c₀ hid rfl
      simp [hn] at hid
    constructor
    · intro id c hc
      rcases create_confirmations hc with ⟨rfl, rfl⟩ | hc
      · exact ⟨_, update_self _ _ _, rfl⟩
      · obtain ⟨c₀, hiss, hbou⟩ := hb.rows id c hc
        exact ⟨c₀, (update_of_ne (hold hiss) _ _).trans hiss, hbou⟩
    · intro m hm
      obtain ⟨c₀, hiss, hmade⟩ := hb.made m hm
      exact ⟨c₀, (update_of_ne (hold hiss) _ _).trans hiss, hmade⟩
    · intro m hm c hc
      rcases create_confirmations hc with ⟨hsta, -⟩ | hc
      · obtain ⟨c₀, hiss, -⟩ := hb.made m hm
        exact absurd hsta (hold hiss)
      · exact hb.spent m hm c hc
    · intro id
      simp only [create_operations]
      exact hb.recorded id
    · exact hb.once
  | spend _ _ get =>
    refine ⟨fun id c' hc' => rows_of_update hb get hc', hb.made, ?_, hb.recorded, hb.once⟩
    intro m hm c' hc'
    rcases confirmation_of_update get hc' with ⟨-, rfl⟩ | ⟨-, hc'⟩
    · exact hpos.ne'
    · exact hb.spent m hm c' hc'
  | commit operation op user _ c _ _ usable =>
    -- The confirmation was unused, so no mutation was made under it.
    have hnew : ∀ m ∈ s.log, m.state ≠ operation.state := by
      intro m hm hsta
      exact hb.spent m hm c (hsta ▸ usable.get) usable.unused
    constructor
    · exact fun id c' hc' => rows_of_update hb usable.get hc'
    · intro m hm
      rcases mem_append.1 hm with hm | hm
      · exact hb.made m hm
      · obtain rfl := mem_singleton.1 hm
        obtain ⟨c₀, hiss, hbou⟩ := hb.rows operation.state c usable.get
        have hu := usable.user
        have htool := usable.tool
        have hpay := usable.payload
        have hcur := usable.current
        rw [hbou] at hu htool hpay hcur
        exact ⟨c₀, hiss, hu.symm, htool.symm, hpay.symm, hcur⟩
    · intro m hm c' hc'
      rcases confirmation_of_update usable.get hc' with ⟨-, rfl⟩ | ⟨hsta, hc'⟩
      · exact hpos.ne'
      · rcases mem_append.1 hm with hm | hm
        · exact hb.spent m hm c' hc'
        · obtain rfl := mem_singleton.1 hm
          exact absurd rfl hsta
    · intro id
      by_cases hid : id = operation.state
      · subst hid
        simp
      · have hlog : (∃ m ∈ s.log ++ [⟨operation.state, user, operation.toolName,
            operation.payloadHash, e.time, op⟩], m.state = id) ↔ ∃ m ∈ s.log, m.state = id := by
          simp [or_and_right, exists_or, Ne.symm hid]
        rw [hlog]
        simp only [update_of_ne hid]
        exact hb.recorded id
    · rw [map_append, nodup_append]
      refine ⟨hb.once, nodup_singleton _, ?_⟩
      intro id hid id' hid'
      obtain ⟨m, hm, rfl⟩ := List.mem_map.1 hid
      obtain rfl := mem_singleton.1 hid'
      exact hnew m hm

theorem bound_of_run {db : Db} (ht : 0 < t) {c : Timed McpState} (h : McpRun (mcpStart t db) c) :
    0 < c.clock ∧ Bound c.state := by
  refine Timed.invariant (P := fun t s => 0 < t ∧ Bound s) ?_ h ⟨ht, ?_⟩
  · intro t s e hs hle hfr
    have hpos : 0 < e.time := hs.1.trans_le hle
    exact ⟨hpos, (mcpStep_move e s).bound hs.2 hfr hpos⟩
  · constructor <;> simp [mcpStart]

/-! ## Dead confirmations -/

/-- No call can use the confirmation any more. -/
def Dead (id : String) (t : ℤ) (s : McpState) : Prop :=
  s.issued id ≠ none ∧ ∀ c, s.store.confirmations id = some c → c.consumedAt ≠ 0 ∨ c.expiresAt < t

/-- The mutations made under a state. -/
def McpState.madeUnder (s : McpState) (id : String) : List Mutation :=
  s.log.filter fun m => m.state = id

theorem McpMove.dead {s s' : McpState} (h : McpMove e s s')
    (hd : Dead id t s) (hle : t ≤ e.time) (hfr : issuesFresh e s) (hpos : 0 < e.time) :
    Dead id e.time s' ∧ s'.madeUnder id = s.madeUnder id := by
  have later : ∀ {c : Confirmation}, c.consumedAt ≠ 0 ∨ c.expiresAt < t →
      c.consumedAt ≠ 0 ∨ c.expiresAt < e.time := by
    rintro c (hud | hexp)
    · exact .inl hud
    · exact .inr (hexp.trans_le hle)
  cases h with
  | keep => exact ⟨⟨hd.1, fun c hc => later (hd.2 c hc)⟩, rfl⟩
  | issue state user toolName payloadHash isCreate =>
    have hid : id ≠ state := by
      rintro rfl
      exact hd.1 (hfr id user toolName payloadHash isCreate)
    refine ⟨⟨?_, fun c hc => ?_⟩, rfl⟩
    · simp only [update_of_ne hid]
      exact hd.1
    · rcases create_confirmations hc with ⟨hsta, -⟩ | hc
      · exact absurd hsta hid
      · exact later (hd.2 c hc)
  | spend _ _ get =>
    refine ⟨⟨hd.1, fun c' hc' => ?_⟩, rfl⟩
    rcases confirmation_of_update get hc' with ⟨-, rfl⟩ | ⟨-, hc'⟩
    · exact .inl hpos.ne'
    · exact later (hd.2 c' hc')
  | commit operation _ _ _ c _ _ usable =>
    have hid : id ≠ operation.state := by
      rintro rfl
      rcases hd.2 c usable.get with hud | hexp
      · exact hud usable.unused
      · exact absurd (hexp.trans_le hle) (not_lt.2 usable.current)
    refine ⟨⟨hd.1, fun c' hc' => ?_⟩, ?_⟩
    · rcases confirmation_of_update usable.get hc' with ⟨hsta, -⟩ | ⟨-, hc'⟩
      · exact absurd hsta hid
      · exact later (hd.2 c' hc')
    · simp [McpState.madeUnder, Ne.symm hid]

theorem dead_of_run {c c' : Timed McpState} (h : McpRun c c')
    (hpos : 0 < c.clock) (hd : Dead id c.clock c.state) :
    c'.state.madeUnder id = c.state.madeUnder id := by
  refine (Timed.invariant (P := fun t s => 0 < t ∧ Dead id t s ∧
    s.madeUnder id = c.state.madeUnder id) ?_ h ⟨hpos, hd, rfl⟩).2.2
  intro t s e hs hle hfr
  have hpos : 0 < e.time := hs.1.trans_le hle
  obtain ⟨hdead, hmade⟩ := (mcpStep_move e s).dead hs.2.1 hle hfr hpos
  exact ⟨hpos, hdead, hmade.trans hs.2.2⟩

/-- A call whose confirmation is refused consumes it. -/
theorem confirmedCall_of_refused (htx : op.prepare env = .ok tx)
    (h : validateOpenSourceBountyMCPConfirmationTx env.now user operation s =
      .error confirmationInvalid) :
    confirmedCall env user operation op s = (.error confirmationInvalid,
      (consumeOpenSourceBountyMCPConfirmation env.now user operation s).2) := by
  have hcall : confirmedTx env.now user operation tx s = .error confirmationInvalid :=
    bind_eq_error.2 (.inl h)
  simp [confirmedCall, htx, hcall, confirmationInvalid, bountyError, openSourceBountyErrorCode]

/-- A confirmation whose own user and tool present it with other arguments is refused. -/
theorem refused_of_mismatch (h : ∀ c, s.confirmations operation.state = some c →
      c.payloadHash ≠ operation.payloadHash) :
    validateOpenSourceBountyMCPConfirmationTx t user operation s = .error confirmationInvalid := by
  rw [validateOpenSourceBountyMCPConfirmationTx]
  cases hfd : s.findConfirmation user operation with
  | none => rfl
  | some c =>
    have hpay := h c (findConfirmation_eq_some.1 hfd).1
    refine bind_eq_error.2 (.inr ⟨c, rfl, require_eq_error.2 ⟨?_, rfl⟩⟩)
    simp [hpay]

variable {s : McpState}

/-- A confirmation is dead after its own user and tool have presented it with other arguments. -/
theorem dead_of_mismatch (hb : Bound s) (hpos : 0 < e.time)
    (hact : e.action = .call operation op) (hop : op.confirmedUser = some user) {c₀ : Confirmation}
    (hiss : s.issued operation.state = some c₀) (hu : user = c₀.userId)
    (htool : operation.toolName = c₀.toolName) (hpay : operation.payloadHash ≠ c₀.payloadHash)
    (htx : op.prepare e.env = .ok tx) : Dead operation.state e.time (mcpStep e s) ∧
      (mcpStep e s).madeUnder operation.state = s.madeUnder operation.state := by
  have hbou : ∀ c, s.store.confirmations operation.state = some c →
      c = { c₀ with consumedAt := c.consumedAt } := by
    intro c hc
    obtain ⟨c₁, hc₁, hbou⟩ := hb.rows _ c hc
    rwa [mem_unique hiss hc₁]
  have hval : validateOpenSourceBountyMCPConfirmationTx e.env.now user operation s.store =
      .error confirmationInvalid := by
    refine refused_of_mismatch fun c hc => ?_
    rw [hbou c hc]
    exact hpay.symm
  have href := confirmedCall_of_refused htx hval
  have hs : mcpStep e s = { s with
      store := (consumeOpenSourceBountyMCPConfirmation e.time user operation s.store).2 } := by
    simp [mcpStep, hact, hop, McpState.record, href, McpEvent.time]
  rw [hs]
  refine ⟨⟨by simp [hiss], fun c hc => ?_⟩, rfl⟩
  unfold consumeOpenSourceBountyMCPConfirmation at hc
  split at hc
  · -- The row would have been found: its user and tool are those of the call.
    rename_i hn
    have hfd : s.store.findConfirmation user operation = some c := by
      rw [findConfirmation_eq_some, hbou c hc]
      exact ⟨hbou c hc ▸ hc, hu.symm, htool.symm⟩
    simp [hn] at hfd
  · rename_i c' hfd
    split at hc
    · rename_i hdead
      obtain rfl := some.inj ((findConfirmation_eq_some.1 hfd).1.symm.trans hc)
      exact hdead
    · simp only [McpStore.putConfirmation, update_self, some.injEq] at hc
      obtain rfl := hc
      exact .inl hpos.ne'

/-! ## Single use -/

theorem madeUnder_length (hb : Bound s) (id : String) :
    (s.madeUnder id).length ≤ 1 := by
  have hcnt := nodup_iff_count_le_one.1 hb.once id
  rw [List.count, countP_map, countP_eq_length_filter] at hcnt
  exact hcnt

/-- A call that adds no mutation to the history leaves the bounties as they are. -/
theorem db_of_unlogged (hact : e.action = .call operation op)
    (hlog : (mcpStep e s).log = s.log) : (mcpStep e s).store.db = s.store.db := by
  have h := mcpStep_move e s
  generalize mcpStep e s = s' at h hlog ⊢
  cases h with
  | keep _ isCall => exact isCall ⟨operation, op, hact⟩
  | issue _ _ _ _ isCreate => simp [hact] at isCreate
  | spend => rfl
  | commit => simp at hlog

/-- **A confirmation is used at most once.** In every run with a positive clock and fresh states: at
most one mutation is made under a state, by the confirmation's user with its tool and arguments and
no later than its expiry; the operation rows are those of the mutations, and a call without a
mutation leaves the bounties as they are; and once the confirmation's user has presented it with its
tool and other arguments, in a call that passes the checks of its arguments, no mutation is made
under it. -/
theorem confirmation_single_use {db : Db} (ht : 0 < t) {c : Timed McpState}
    (h : McpRun (mcpStart t db) c) :
    (∀ id, (c.state.madeUnder id).length ≤ 1) ∧
    (∀ m ∈ c.state.log, ∃ c₀, c.state.issued m.state = some c₀ ∧ m.userId = c₀.userId ∧
      m.toolName = c₀.toolName ∧ m.payloadHash = c₀.payloadHash ∧ m.time ≤ c₀.expiresAt) ∧
    (∀ id, (c.state.store.operations id).isSome ↔ ∃ m ∈ c.state.log, m.state = id) ∧
    (∀ e operation op, e.action = .call operation op → (mcpStep e c.state).log = c.state.log →
      (mcpStep e c.state).store.db = c.state.store.db) ∧
    ∀ e operation op user c₀ tx, e.action = .call operation op → c.clock ≤ e.time →
      op.confirmedUser = some user → c.state.issued operation.state = some c₀ →
      user = c₀.userId → operation.toolName = c₀.toolName →
      operation.payloadHash ≠ c₀.payloadHash → op.prepare e.env = .ok tx →
      ∀ c', McpRun ⟨e.time, mcpStep e c.state⟩ c' →
        c'.state.madeUnder operation.state = c.state.madeUnder operation.state := by
  obtain ⟨hpos, hb⟩ := bound_of_run ht h
  refine ⟨madeUnder_length hb, hb.made, hb.recorded,
    fun e operation op haction hlog => db_of_unlogged haction hlog, ?_⟩
  intro e operation op user c₀ tx haction hle hop hissued huser htool hpayload htx c' hrun
  have hpos' : 0 < e.time := hpos.trans_le hle
  obtain ⟨hdead, hsame⟩ := dead_of_mismatch hb hpos' haction hop hissued huser htool hpayload htx
  exact (dead_of_run hrun hpos' hdead).trans hsame

/-! ## A deleted draft -/

def sampleTool : String := "open_source_bounties.delete_draft"

/-- The owner of a draft asks for a confirmation to delete it. -/
def sampleCreate : McpEvent :=
  ⟨⟨2, ""⟩, .create "mcp_confirm_1" 1 sampleTool "hash of the arguments"⟩

/-- A user presents the confirmation, with the hash of some arguments. -/
def sampleCall (time : ℤ) (user : ℕ) (payloadHash : String) : McpEvent :=
  ⟨⟨time, ""⟩, .call ⟨"mcp_confirm_1", sampleTool, payloadHash⟩ (.deleteDraft user 1)⟩

/-- The store with a draft. -/
def draftDb : Db := (sampleRun [.at_ 1 (.createDraft 1 sampleDraft)]).state

def sampleMcpRun (events : List McpEvent) : Timed McpState :=
  Timed.runList mcpStep McpEvent.time (mcpStart 1 draftDb) events

theorem mcpRun_sampleCreate : McpRun (mcpStart 1 draftDb) (sampleMcpRun [sampleCreate]) :=
  Timed.Reaches.single sampleCreate (by decide) fun _ _ _ _ _ => rfl

/-- A call is a run of one step. -/
theorem mcpRun_sampleCall {c : Timed McpState} (time : ℤ) (user : ℕ) (payloadHash : String)
    (h : c.clock ≤ time) : McpRun c ⟨time, mcpStep (sampleCall time user payloadHash) c.state⟩ := by
  refine Timed.Reaches.single (sampleCall time user payloadHash) h ?_
  intro _ _ _ _ hcre
  cases hcre

/-- The draft is deleted with the confirmation, once. -/
theorem confirmation_single_use_delete :
    let c := sampleMcpRun [sampleCreate, sampleCall 3 1 "hash of the arguments",
      sampleCall 4 1 "hash of the arguments"]
    c.state.log.map Mutation.time = [3] ∧ (c.state.madeUnder "mcp_confirm_1").length ≤ 1 := by
  refine ⟨by decide +kernel, ?_⟩
  have hrun : McpRun (mcpStart 1 draftDb) (sampleMcpRun [sampleCreate,
      sampleCall 3 1 "hash of the arguments", sampleCall 4 1 "hash of the arguments"]) :=
    (mcpRun_sampleCreate.trans (mcpRun_sampleCall 3 1 _ (by decide))).trans
      (mcpRun_sampleCall 4 1 _ (by decide))
  exact (confirmation_single_use (by decide : (0 : ℤ) < 1) hrun).1 _

/-- **Another user's attempt does not use a confirmation up**: user 2 presents the owner's
confirmation with other arguments and fails, and the owner deletes the draft with it afterwards. -/
theorem foreign_mismatch_commits : ∃ c c' : Timed McpState, ∃ e operation op user c₀,
      McpRun (mcpStart 1 draftDb) c ∧ e.action = .call operation op ∧
      op.confirmedUser = some user ∧ c.state.issued operation.state = some c₀ ∧
      operation.payloadHash ≠ c₀.payloadHash ∧
      (confirmedCall e.env user operation op c.state.store).1 = .error confirmationInvalid ∧
      McpRun ⟨e.time, mcpStep e c.state⟩ c' ∧
      c.state.madeUnder operation.state = [] ∧ c'.state.madeUnder operation.state ≠ [] := by
  refine ⟨sampleMcpRun [sampleCreate], sampleMcpRun [sampleCreate, sampleCall 3 2 "another hash",
      sampleCall 4 1 "hash of the arguments"],
    sampleCall 3 2 "another hash", _, _, 2, _, mcpRun_sampleCreate, rfl, rfl, rfl, by decide,
    by decide +kernel, ?_, by decide +kernel, by decide +kernel⟩
  exact mcpRun_sampleCall 4 1 _ (by decide)

end LmmApi.Bounty
