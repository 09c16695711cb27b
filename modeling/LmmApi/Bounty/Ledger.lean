import LmmApi.Bounty.Escrow

/-!
# The ledger

Money moves between wallets and escrows, and every movement is a ledger row. The effects of a row on
wallets (`Ledger.moves`) and on the escrow of its project (`Ledger.escrowEffect`) cancel, and each
transition appends rows whose effects are exactly what it does to wallets and escrows (`Booked`).

Conservation of money follows for every step, and along runs that wallets and escrows are what the
ledger says (`Accounts`).
-/

namespace LmmApi.Bounty

open List Option Table Ledger

variable {now : ℤ} {op : Op} {db db' : Db}

/-! ## Effects of a row -/

/-- What a ledger row moves into and out of wallets. -/
def Ledger.moves (l : Ledger) : List (ℕ × ℤ) :=
  match l.kind with
  | .escrowFund => [(l.userId, -l.quota)]
  | .rewardTransfer | .disputeRewardTransfer => [(l.counterpartyUserId, l.quota)]
  | .escrowRefund => [(l.userId, l.quota)]
  | .tipTransfer | .platformFee => [(l.userId, -l.quota), (l.counterpartyUserId, l.quota)]

/-- What a ledger row moves into the escrow of its project. -/
def Ledger.escrowEffect (l : Ledger) : ℤ :=
  match l.kind with
  | .escrowFund => l.quota
  | .rewardTransfer | .disputeRewardTransfer | .escrowRefund => -l.quota
  | .tipTransfer | .platformFee => 0

/-- What a ledger row moves into the wallet of a user. -/
def Ledger.walletEffect (user : ℕ) (l : Ledger) : ℤ :=
  (l.moves.map fun m => if user = m.1 then m.2 else 0).sum

/-- What a ledger row moves into the escrow of a project. -/
def Ledger.projectEffect (project : ℕ) (l : Ledger) : ℤ :=
  if l.projectId = project then l.escrowEffect else 0

/-- No row makes or destroys money. -/
theorem Ledger.balanced (l : Ledger) : (l.moves.map Prod.snd).sum + l.escrowEffect = 0 := by
  unfold moves escrowEffect
  cases l.kind <;> simp

/-- The escrow of a project, zero for a project that is not there. -/
def escrowOf (projects : Table Project) (id : ℕ) : ℤ :=
  (projects.get? id).elim 0 Project.escrowQuota

/-- The sum of all escrows. -/
def escrowTotal (projects : Table Project) : ℤ := projects.sum fun _ p => p.escrowQuota

variable {projects : Table Project} {p : Project} {users : Table User} {id : ℕ}

theorem escrowOf_modify (hp : projects.get? id = some p) (f : Project → Project) (j : ℕ) :
    escrowOf (projects.modify id f) j =
      escrowOf projects j + if id = j then (f p).escrowQuota - p.escrowQuota else 0 := by
  unfold escrowOf
  by_cases hj : id = j
  · subst hj
    rw [get?_modify_self, hp, if_pos rfl]
    simp
  · rw [get?_modify_of_ne _ _ (Ne.symm hj), if_neg hj, add_zero]

theorem escrowTotal_modify (hp : projects.get? id = some p) (f : Project → Project) :
    escrowTotal (projects.modify id f) =
      escrowTotal projects + ((f p).escrowQuota - p.escrowQuota) := by
  unfold escrowTotal
  rw [sum_modify hp]
  ring

/-! ## Every transition is booked -/

/-- The rows `entries` account for all that changed in wallets and escrows. -/
structure Booked (db db' : Db) (entries : List Ledger) : Prop where
  ledgers : db'.ledgers = insertAll db.ledgers entries
  walletTotal : walletTotal db'.users =
    walletTotal db.users + (entries.map fun l => (l.moves.map Prod.snd).sum).sum
  wallet : ∀ u, walletOf db'.users u =
    walletOf db.users u + (entries.map (Ledger.walletEffect u)).sum
  escrowTotal : escrowTotal db'.projects =
    escrowTotal db.projects + (entries.map Ledger.escrowEffect).sum
  escrow : ∀ id, escrowOf db'.projects id =
    escrowOf db.projects id + (entries.map (Ledger.projectEffect id)).sum

/-- A transition that moves no money needs no row. -/
theorem Booked.nil (hled : db'.ledgers = db.ledgers) (hus : db'.users = db.users)
    (htot : LmmApi.Bounty.escrowTotal db'.projects = LmmApi.Bounty.escrowTotal db.projects)
    (hesc : ∀ id, escrowOf db'.projects id = escrowOf db.projects id) : Booked db db' [] where
  ledgers := hled
  walletTotal := by simp [hus]
  wallet u := by simp [hus]
  escrowTotal := by simp [htot]
  escrow id := by simp [hesc]

theorem escrowOf_insert (hp : p.escrowQuota = 0) (j : ℕ) :
    escrowOf (projects.insert p) j = escrowOf projects j := by
  unfold escrowOf
  rw [get?_insert]
  split
  · rename_i hj
    rw [hj, get?_next]
    exact hp
  · rfl

theorem escrowOf_erase (hg : projects.get? id = some p) (hp : p.escrowQuota = 0) (j : ℕ) :
    escrowOf (projects.eraseWhere fun i _ => i = id) j = escrowOf projects j := by
  unfold escrowOf
  by_cases hj : j = id
  · have hn : (projects.eraseWhere fun i _ => i = id).get? j = none := by
      refine eq_none_iff_forall_ne_some.2 fun q hq => ?_
      exact (get?_eraseWhere_eq_some.1 hq).2 hj
    rw [hn, hj, hg]
    exact hp.symm
  · have hs : (projects.eraseWhere fun i _ => i = id).get? j = projects.get? j := by
      ext q
      rw [get?_eraseWhere_eq_some]
      exact ⟨fun h => h.1, fun h => ⟨h, hj⟩⟩
    rw [hs]

theorem escrowTotal_erase (hg : projects.get? id = some p) (hp : p.escrowQuota = 0) :
    escrowTotal (projects.eraseWhere fun i _ => i = id) = escrowTotal projects := by
  unfold escrowTotal
  apply sum_eraseWhere_of_eq_zero
  intro i q hq hi
  obtain rfl := mem_unique hg (hi ▸ hq)
  exact hp

/-- The publication of a draft funds its escrow and the fee from the owner's wallet. -/
theorem booked_publish {env : Env} {id recipient : ℕ} {f : Project → Project}
    {charge : PublicationCharge} (hp : db.projects.get? id = some p)
    (hemp : p.escrowQuota = 0) (hesc : (f p).escrowQuota = charge.escrowQuota)
    (hch : calculateOpenSourceBountyPublicationCharge env p = .ok charge)
    (hmvd : Moved db.users users
      [(p.ownerUserId, -charge.totalQuota), (recipient, charge.platformFeeQuota)]) :
    Booked db { db with
      users
      projects := db.projects.modify id f
      ledgers := insertAll db.ledgers (publicationEntries env p.ownerUserId id recipient charge) }
      (publicationEntries env p.ownerUserId id recipient charge) := by
  obtain ⟨htot, -, -, -, hfee⟩ := calculateOpenSourceBountyPublicationCharge_spec hch
  have hwal := hmvd.total
  have heach := hmvd.each
  have hsum := escrowTotal_modify hp f
  have hone := escrowOf_modify hp f
  simp only [map_cons, map_nil, sum_cons, sum_nil] at hwal heach
  unfold publicationEntries
  split
  · refine ⟨rfl, ?_, fun u => ?_, ?_, fun j => ?_⟩
    · simp only [moves, map_cons, map_nil, sum_cons, sum_nil]
      omega
    · rw [heach u]
      simp only [walletEffect, moves, map_cons, map_nil, sum_cons, sum_nil]
      split <;> omega
    · rw [hsum]
      simp only [escrowEffect, map_cons, map_nil, sum_cons, sum_nil]
      omega
    · rw [hone j]
      simp only [projectEffect, escrowEffect, map_cons, map_nil, sum_cons, sum_nil, ite_self]
      split <;> omega
  · have hz : charge.platformFeeQuota = 0 := by omega
    refine ⟨rfl, ?_, fun u => ?_, ?_, fun j => ?_⟩
    · simp only [moves, map_cons, map_nil, sum_cons, sum_nil]
      omega
    · rw [heach u]
      simp only [walletEffect, moves, map_cons, map_nil, sum_cons, sum_nil, hz, ite_self]
      split <;> omega
    · rw [hsum]
      simp only [escrowEffect, map_cons, map_nil, sum_cons, sum_nil]
      omega
    · rw [hone j]
      simp only [projectEffect, escrowEffect, map_cons, map_nil, sum_cons, sum_nil]
      split <;> omega

/-- Closing refunds what is left of the escrow. -/
theorem booked_close {env : Env} {f : Project → Project}
    (hp : db.projects.get? id = some p) (hnn : 0 ≤ p.escrowQuota) (hesc : (f p).escrowQuota = 0)
    (hmvd : Moved db.users users [(p.ownerUserId, max p.escrowQuota 0)]) :
    Booked db { db with
      users
      projects := db.projects.modify id f
      ledgers := insertAll db.ledgers (refundEntries env p.ownerUserId id p.escrowQuota) }
      (refundEntries env p.ownerUserId id p.escrowQuota) := by
  rw [max_eq_left hnn] at hmvd
  have hsum := escrowTotal_modify hp f
  have hone := escrowOf_modify hp f
  unfold refundEntries
  split
  · refine ⟨rfl, ?_, fun u => ?_, ?_, fun j => ?_⟩
    · rw [hmvd.total]
      simp [moves]
    · rw [hmvd.each u]
      simp [walletEffect, moves]
    · rw [hsum]
      simp [escrowEffect, hesc]
    · rw [hone j]
      simp [projectEffect, escrowEffect, hesc]
  · have hz : p.escrowQuota = 0 := by omega
    refine ⟨rfl, ?_, fun u => ?_, ?_, fun j => ?_⟩
    · rw [hmvd.total]
      simp [hz]
    · rw [hmvd.each u]
      simp [hz]
    · rw [hsum]
      simp [hesc, hz]
    · rw [hone j]
      simp [hesc, hz]

/-- A payout moves the reward from the escrow to the participant. -/
theorem booked_pay {c : Challenge} {entry : Ledger}
    (hp : db.projects.get? c.projectId = some p) (hent : PayoutEntry id c entry)
    (hmvd : Moved db.users users [(c.participantUserId, c.rewardQuota)])
    (challenges : Table Challenge) (disputes : Table Dispute) :
    Booked db
      { users, projects := db.projects.modify c.projectId (Project.payReward now c.rewardQuota)
        challenges, disputes, ledgers := db.ledgers.insert entry } [entry] := by
  have hsum := escrowTotal_modify hp (Project.payReward now c.rewardQuota)
  have hone := escrowOf_modify hp (Project.payReward now c.rewardQuota)
  have hmv : entry.moves = [(c.participantUserId, c.rewardQuota)] := by
    rw [← hent.counterparty, ← hent.quota]
    rcases hent.kind with hk | hk <;> simp [Ledger.moves, hk]
  have heff : entry.escrowEffect = -c.rewardQuota := by
    rw [← hent.quota]
    rcases hent.kind with hk | hk <;> simp [escrowEffect, hk]
  refine ⟨rfl, ?_, fun u => ?_, ?_, fun j => ?_⟩
  · rw [hmvd.total]
    simp [hmv]
  · rw [hmvd.each u]
    simp [walletEffect, hmv]
  · rw [hsum]
    simp [heff, Project.payReward]
  · rw [hone j]
    simp [projectEffect, heff, hent.project, Project.payReward]

/-- A tip moves its quota between two wallets. -/
theorem booked_tip {entry : Ledger} (hkind : entry.kind = .tipTransfer) (hmvd : Moved db.users users
      [(entry.userId, -entry.quota), (entry.counterpartyUserId, entry.quota)])
    (challenges : Table Challenge) :
    Booked db { db with users, challenges, ledgers := db.ledgers.insert entry } [entry] := by
  have hmv : entry.moves =
      [(entry.userId, -entry.quota), (entry.counterpartyUserId, entry.quota)] := by
    simp [Ledger.moves, hkind]
  have heff : entry.escrowEffect = 0 := by simp [escrowEffect, hkind]
  refine ⟨rfl, ?_, fun u => ?_, ?_, fun j => ?_⟩
  · rw [hmvd.total]
    simp [hmv]
  · rw [hmvd.each u]
    simp [walletEffect, hmv]
  · simp [heff]
  · simp [projectEffect, heff]

/-- **Every transition is booked.** -/
theorem Transition.booked (h : Transition now op db db') (hf : Funded db) :
    ∃ entries, Booked db db' entries := by
  cases h with
  | newDraft _ _ escrow =>
    refine ⟨[], .nil rfl rfl ?_ (escrowOf_insert escrow)⟩
    unfold escrowTotal
    rw [sum_insert, escrow, add_zero]
  | edit _ _ _ get edit =>
    refine ⟨[], .nil rfl rfl ?_ fun id => ?_⟩
    · rw [escrowTotal_modify get, edit.escrow, sub_self, add_zero]
    · rw [escrowOf_modify get, edit.escrow, sub_self, ite_self, add_zero]
  | deleteDraft j p get status =>
    have hemp := hf.draft j p get status
    exact ⟨[], .nil rfl rfl (escrowTotal_erase get hemp) (escrowOf_erase get hemp)⟩
  | publish j p _ _ _ _ _ get status charged published moved =>
    exact ⟨_, booked_publish get (hf.draft j p get status) published.2.1 charged moved⟩
  | close j p _ _ _ _ get _ _ _ closed moved =>
    exact ⟨_, booked_close get (hf.nonneg j p get) closed.2.1 moved⟩
  | tip _ _ _ _ _ _ _ _ isTip moved => exact ⟨_, booked_tip isTip.1 moved _⟩
  | pay _ _ _ _ _ _ _ _ _ getProject _ _ _ _ _ isPayout _ moved =>
    exact ⟨_, booked_pay getProject isPayout moved _ _⟩
  | _ => exact ⟨[], .nil rfl rfl rfl fun _ => rfl⟩

/-! ## Conservation -/

/-- Rows neither make nor destroy money. -/
theorem sum_moves_add_sum_escrowEffect (entries : List Ledger) :
    (entries.map fun l => (l.moves.map Prod.snd).sum).sum + (entries.map escrowEffect).sum = 0 := by
  induction entries with
  | nil => simp
  | cons l entries ih =>
    have hl := l.balanced
    simp only [map_cons, sum_cons]
    omega

/-- Wallets and escrows are what the ledger says, from the wallets `users₀` on. -/
structure Accounts (users₀ : Table User) (db : Db) : Prop where
  wallet : ∀ u, walletOf db.users u = walletOf users₀ u + db.ledgers.sum fun _ l => l.walletEffect u
  escrow : ∀ id, escrowOf db.projects id = db.ledgers.sum fun _ l => l.projectEffect id

theorem Booked.accounts {users₀ : Table User} {entries : List Ledger} (h : Booked db db' entries)
    (ha : Accounts users₀ db) : Accounts users₀ db' where
  wallet u := by
    rw [h.wallet, ha.wallet, h.ledgers, insertAll, sum_foldl_insert _ _ (walletEffect u)]
    ring
  escrow id := by
    rw [h.escrow, ha.escrow, h.ledgers, insertAll, sum_foldl_insert _ _ (projectEffect id)]

/-- The accounts agree with the ledger in every reachable state. -/
theorem accounts_of_run {ok : Event → Db → Prop} {t : ℤ} {c : Timed Db}
    (h : Run ok (start t users) c) : Accounts users c.state := by
  have h₀ : Accounts users (.empty users) := ⟨fun u => by simp [Db.empty], fun id => rfl⟩
  refine (Timed.invariant (P := fun _ db => (Linked db ∧ Funded db) ∧ Accounts users db) ?_ h
    ⟨⟨linked_empty users, funded_empty users⟩, h₀⟩).2
  rintro _ db e ⟨⟨hl, hf⟩, ha⟩ - -
  have htra := step_transition e db
  obtain ⟨_, hbk⟩ := htra.booked hf
  exact ⟨⟨htra.linked hl, htra.funded hl hf⟩, hbk.accounts ha⟩

/-- The sum of the ledger rows of a project that have one of the given kinds. -/
def ledgerTotal (db : Db) (projectId : ℕ) (kinds : List LedgerKind) : ℤ :=
  db.ledgers.sum fun _ l => if l.projectId = projectId ∧ l.kind ∈ kinds then l.quota else 0

/-- The escrow effect of a project's rows, by kind. -/
theorem sum_projectEffect (db : Db) (id : ℕ) :
    db.ledgers.sum (fun _ l => l.projectEffect id) + ledgerTotal db id
        [.rewardTransfer, .disputeRewardTransfer] + ledgerTotal db id [.escrowRefund] =
      ledgerTotal db id [.escrowFund] := by
  unfold ledgerTotal
  rw [← sum_add, ← sum_add]
  refine sum_congr fun i l _ => ?_
  by_cases hp : l.projectId = id
  · cases hk : l.kind <;> simp [projectEffect, escrowEffect, hp, hk]
  · simp [projectEffect, hp]

/-- **Money is conserved.** In every reachable state, no operation changes the sum of all wallets
and escrows. The escrow of every project that was published is what its ledger rows leave, it is one
net reward for each slot that is not paid while the project is published, paused or completed, and
nothing once it is closed. -/
theorem money_conserved {t : ℤ} {users : Table User} {c : Timed Db}
    (h : Run Timed.anyStep (start t users) c) :
    (∀ e : Event, walletTotal (step e c.state).users + escrowTotal (step e c.state).projects =
        walletTotal c.state.users + escrowTotal c.state.projects) ∧
      ∀ id p, c.state.projects.get? id = some p → p.status ≠ .draft →
        ledgerTotal c.state id [.escrowFund] = p.escrowQuota +
            ledgerTotal c.state id [.rewardTransfer, .disputeRewardTransfer] +
            ledgerTotal c.state id [.escrowRefund] ∧
          (p.status ≠ .closed →
            p.escrowQuota = p.netRewardQuota * (p.rewardSlots - approvedCount c.state id)) ∧
          (p.status = .closed → p.escrowQuota = 0) := by
  have hf := funded_of_run h
  have ha := accounts_of_run h
  refine ⟨fun e => ?_, fun id p hp hdraft => ⟨?_, ?_, ?_⟩⟩
  · obtain ⟨entries, hbooked⟩ := (step_transition e c.state).booked hf
    have hz := sum_moves_add_sum_escrowEffect entries
    rw [hbooked.walletTotal, hbooked.escrowTotal]
    omega
  · have hescrow := ha.escrow id
    have hsum := sum_projectEffect c.state id
    simp only [escrowOf, hp, elim_some] at hescrow
    omega
  · exact hf.held id p hp hdraft
  · exact fun hclosed => hf.spent id p hp (.inr hclosed)

/-- A bounty that was published, taken up and paid. -/
theorem money_conserved_paid :
    let c := sampleRun [.at_ 1 (.createDraft 1 sampleDraft), .at_ 2 (.publish none 1 1),
      .at_ 3 (.accept 2 1 "alice"), .at_ 4 (.submit 2 1 "" samplePull ""),
      .at_ 5 (.review 1 1 ⟨true, "", 5, "good work"⟩)]
    (c.state.projects.get? 1).map (·.status) = some .completed ∧
      ∀ e : Event, walletTotal (step e c.state).users + escrowTotal (step e c.state).projects =
        walletTotal c.state.users + escrowTotal c.state.projects :=
  ⟨by decide +kernel, (money_conserved (Timed.reaches_runList _ _ (by decide))).1⟩

/-- **The ledger explains every wallet**: no bounty operation moves money without a row. -/
theorem wallet_explained {t : ℤ} {c : Timed Db} (h : Run Timed.anyStep (start t users) c) (u : ℕ) :
    walletOf c.state.users u =
      walletOf users u + c.state.ledgers.sum fun _ l => l.walletEffect u :=
  (accounts_of_run h).wallet u

theorem wallet_explained_published :
    let c := sampleRun [.at_ 1 (.createDraft 1 sampleDraft), .at_ 2 (.publish none 1 1)]
    walletOf c.state.users 1 =
      walletOf sampleUsers 1 + c.state.ledgers.sum fun _ l => l.walletEffect 1 :=
  wallet_explained (Timed.reaches_runList _ _ (by decide)) 1

end LmmApi.Bounty
