import LmmApi.Lib.Attribution
import LmmApi.Lib.GoText
import LmmApi.Wallet

/-!
# Tips for public relays

Users contribute relays, and others tip them. A tip moves quota from the wallet of the tipper to the
ledger of the contribution, where it stays until the owner withdraws it. Every call is a transaction
that holds the lock of the contribution, and one with a statement that fails is rolled back.

What a call reads from the configuration, from a channel and from the reviews is an argument of it.
-/

namespace LmmApi.PublicRelay

open Attribution Go Guarded Option Table

inductive Status
  | pending
  | approved
  | rejected
  deriving DecidableEq

/-- `PublicRelayContribution`. -/
structure Contribution where
  userId : ℕ
  group : String
  status : Status := .pending
  reviewNote : String := ""
  reviewedBy : ℕ := 0
  channelId : ℕ := 0
  usedQuota : ℤ := 0
  tipQuota : ℤ := 0
  tipCount : ℤ := 0
  withdrawnQuota : ℤ := 0
  ratingAverage : ℚ := 0
  ratingCount : ℕ := 0

/-- `PublicRelayTip`. -/
structure Tip where
  contributionId : ℕ
  tipperUserId : ℕ
  quota : ℤ
  message : String

structure Db where
  users : Table User
  contributions : Table Contribution
  tips : Table Tip

inductive Failure
  | invalidData
  | invalidInput
  | notFound
  | recordNotFound
  | alreadyReviewed
  | channelLinked
  | groupMismatch
  | walletQuotaOutOfRange
  /-- An error of the database. -/
  | database

/-- The calls. `group` is the configured group and `quotaPerUnit` the quota of a unit. -/
inductive Call
  /-- A submission that passes its checks. -/
  | submit (userId : ℕ) (group : String)
  | review (id adminId : ℕ) (approve : Bool) (note : String)
  /-- The channel, if it is there, has its groups and the contribution that it is linked to. -/
  | link (id channelId : ℕ) (group : String) (channel : Option (List String × ℕ))
  | recordUsage (channelId : ℕ) (quota : ℤ)
  /-- The reviews of the contribution have an average and a count. -/
  | updateRating (id userId : ℕ) (rating : ℤ) (comment group : String) (average : ℚ) (count : ℕ)
  | tip (id tipperId : ℕ) (quota : ℤ) (message group : String) (quotaPerUnit : ℚ)
  | withdraw (id userId : ℕ) (targetGroup : String) (quotaPerUnit : ℚ)
  /-- A call with a statement that fails. -/
  | failing (c : Call)

/-- The conversion of a floating-point number. -/
def int64 (q : ℚ) : ℤ := q.num.tdiv q.den

/-- The contribution is approved, in the configured group, and has a channel. -/
def Contribution.Listed (c : Contribution) (group : String) : Prop :=
  c.status = .approved ∧ c.group = group ∧ 0 < c.channelId
  deriving Decidable

def activeUser (users : Table User) (id : ℕ) : Except Failure User :=
  orFail ((users.get? id).filter fun u => !u.deleted) .recordNotFound

def Db.update (db : Db) (id : ℕ) (f : Contribution → Contribution) : Db :=
  { db with contributions := db.contributions.modify id f }

def Call.call (db : Db) : Call → Except Failure Db
  | .submit userId group =>
    return { db with contributions := db.contributions.insert { userId, group } }
  | .review id adminId approve note => do
    require .invalidData (0 < id ∧ 0 < adminId)
    let note := trimSpace note
    require .invalidInput (note.length ≤ 2000 ∧ (approve ∨ 2 ≤ note.length))
    let item ← orFail (db.contributions.get? id) .notFound
    require .alreadyReviewed (item.status = .pending)
    -- the whole row is saved as it was read under the lock
    return db.update id fun _ => { item with
      status := if approve then .approved else .rejected
      reviewNote := note
      reviewedBy := adminId }
  | .link id channelId group channel => do
    require .invalidData (0 < id ∧ 0 < channelId)
    let item ← orFail (db.contributions.get? id) .notFound
    require .notFound (item.status = .approved)
    let (groups, linked) ← orFail channel .recordNotFound
    require .groupMismatch (group ∈ groups)
    require .channelLinked (linked = 0 ∨ linked = id)
    require .channelLinked (item.channelId = 0 ∨ item.channelId = channelId)
    return db.update id fun c => { c with channelId, group }
  | .recordUsage channelId quota =>
    match db.contributions.first? fun _ c => c.channelId = channelId ∧ c.status = .approved with
    | none => return db
    | some (id, _) =>
      if channelId = 0 ∨ quota ≤ 0 then return db
      else return db.update id fun c => { c with usedQuota := c.usedQuota + quota }
  | .updateRating id userId rating comment group average count => do
    require .invalidInput (0 < id ∧ 0 < userId ∧ 1 ≤ rating ∧ rating ≤ 5 ∧
      (trimSpace comment).length ≤ 2000)
    let item ← orFail (db.contributions.get? id) .notFound
    require .notFound (item.Listed group)
    return db.update id fun c => { c with ratingAverage := average, ratingCount := count }
  | .tip id tipperId quota message group quotaPerUnit => do
    let message := trimSpace message
    require .invalidInput (0 < id ∧ 0 < tipperId ∧ 0 < quota ∧ quota ≤ int64 (quotaPerUnit * 100) ∧
      message.length ≤ 500)
    let item ← orFail (db.contributions.get? id) .notFound
    require .notFound (item.Listed group)
    require .invalidInput (item.userId ≠ tipperId)
    let tipper ← activeUser db.users tipperId
    require .invalidInput (quota ≤ tipper.quota)
    let users ← updateWalletQuotaByDelta db.users tipperId
      (fun u => u.deleted = false ∧ quota ≤ u.quota) (-quota) .walletQuotaOutOfRange .invalidInput
    return { db with users, tips := db.tips.insert ⟨id, tipperId, quota, message⟩ }.update id
      fun c => { c with tipQuota := c.tipQuota + quota, tipCount := c.tipCount + 1 }
  | .withdraw id userId targetGroup quotaPerUnit => do
    require .invalidData (0 < id ∧ 0 < userId ∧ trimSpace targetGroup ≠ "")
    let item ← orFail (db.contributions.get? id) .recordNotFound
    require .recordNotFound (item.userId = userId ∧ item.status = .approved)
    let available := item.tipQuota - item.withdrawnQuota
    require .invalidInput (int64 (quotaPerUnit * 10) ≤ available)
    require .walletQuotaOutOfRange (available ≤ maxWalletQuota)
    -- `ApplyWalletQuotaDelta`, which only makes the same checks for nothing
    let _ ← activeUser db.users userId
    let users ← updateWalletQuotaByDelta db.users userId (fun u => u.deleted = false) available
      .walletQuotaOutOfRange .walletQuotaOutOfRange
    return { db with users }.update id fun c =>
      { c with withdrawnQuota := c.withdrawnQuota + available }
  | .failing _ => .error .database

/-- A call that fails changes nothing. -/
def exec (c : Call) (db : Db) : Db := (c.call db).toOption.getD db

/-- What a call does. -/
inductive Does (db : Db) : Call → Db → Prop
  | same (c : Call) : Does db c db
  | submitted (c : Call) (userId : ℕ) (group : String) :
    Does db c { db with contributions := db.contributions.insert { userId, group } }
  /-- Only columns that are not about quota change. -/
  | touched (c : Call) (id : ℕ) (a : Contribution) (f : Contribution → Contribution)
      (ha : db.contributions.get? id = some a) (htip : (f a).tipQuota = a.tipQuota)
      (hcount : (f a).tipCount = a.tipCount) (hwith : (f a).withdrawnQuota = a.withdrawnQuota) :
      Does db c (db.update id f)
  | tipped (c : Call) (a : Contribution) (u : User) (t : Tip)
      (ha : db.contributions.get? t.contributionId = some a)
      (hu : db.users.get? t.tipperUserId = some u) (hpos : 0 < t.quota) (hle : t.quota ≤ u.quota) :
      Does db c ({ db with
        users := db.users.modify t.tipperUserId (User.addQuota (-t.quota))
        tips := db.tips.insert t }.update t.contributionId fun c =>
          { c with tipQuota := c.tipQuota + t.quota, tipCount := c.tipCount + 1 })
  | withdrawn (id : ℕ) (targetGroup : String) (quotaPerUnit : ℚ) (a : Contribution) (u : User)
      (delta : ℤ) (ha : db.contributions.get? id = some a) (hu : db.users.get? a.userId = some u)
      (hdelta : delta = a.tipQuota - a.withdrawnQuota) :
      Does db (.withdraw id a.userId targetGroup quotaPerUnit)
        ({ db with users := db.users.modify a.userId (User.addQuota delta) }.update id fun c =>
          { c with withdrawnQuota := c.withdrawnQuota + delta })

variable {db db' : Db} {c : Call}

theorem call_does (h : c.call db = .ok db') : Does db c db' := by
  cases c with
  | submit userId group =>
    rw [← pure_eq_ok.1 h]
    exact .submitted _ userId group
  | review id =>
    simp only [Call.call, eq_ok] at h
    obtain ⟨-, -, item, hitem, -, rfl⟩ := h
    exact .touched _ id item _ hitem rfl rfl rfl
  | link id =>
    simp only [Call.call, eq_ok] at h
    obtain ⟨-, item, hitem, -, _, -, -, -, -, rfl⟩ := h
    exact .touched _ id item _ hitem rfl rfl rfl
  | recordUsage =>
    simp only [Call.call] at h
    split at h
    · rw [← pure_eq_ok.1 h]
      exact .same _
    next id item hfirst =>
      split at h <;> rw [← pure_eq_ok.1 h]
      · exact .same _
      · exact .touched _ id item _ (first?_eq_some hfirst).1 rfl rfl rfl
  | updateRating id =>
    simp only [Call.call, eq_ok] at h
    obtain ⟨-, item, hitem, -, rfl⟩ := h
    exact .touched _ id item _ hitem rfl rfl rfl
  | tip id tipperId quota message =>
    simp only [Call.call, eq_ok] at h
    obtain ⟨⟨-, -, hpos, -⟩, item, hitem, -, -, -, -, -, users, husers, rfl⟩ := h
    obtain ⟨-, u, hu, ⟨-, hle⟩, -, rfl⟩ := updateWalletQuotaByDelta_eq_ok.1 husers
    exact .tipped _ item u ⟨id, tipperId, quota, trimSpace message⟩ hitem hu hpos hle
  | withdraw id _ targetGroup quotaPerUnit =>
    simp only [Call.call, eq_ok] at h
    obtain ⟨-, item, hitem, ⟨rfl, -⟩, -, -, -, -, _, husers, rfl⟩ := h
    obtain ⟨-, u, hu, -, -, rfl⟩ := updateWalletQuotaByDelta_eq_ok.1 husers
    exact .withdrawn id targetGroup quotaPerUnit item u _ hitem hu rfl
  | failing => cases h

theorem exec_does (c : Call) (db : Db) : Does db c (exec c db) := by
  obtain hsame | hok := getD_cases (c.call db) db
  · rw [exec, hsame]
    exact .same c
  · exact call_does hok

/-- The wallets and what the contributions hold. -/
def Db.balance (db : Db) : ℤ :=
  walletTotal db.users + db.contributions.sum fun _ c => c.tipQuota - c.withdrawnQuota

/-- The ledger of a contribution agrees with its tips. -/
def Contribution.Agrees (tips : Table Tip) (id : ℕ) (c : Contribution) : Prop :=
  0 ≤ c.withdrawnQuota ∧ c.withdrawnQuota ≤ c.tipQuota ∧
    c.tipQuota = tips.sum (fun _ t => if t.contributionId = id then t.quota else 0) ∧
    c.tipCount = tips.count fun _ t => t.contributionId = id

/-- The ledgers agree with the tips, and with the wallets they add up to `total`. -/
structure Booked (total : ℤ) (db : Db) : Prop where
  balance : db.balance = total
  rows : ∀ id c, db.contributions.get? id = some c → c.Agrees db.tips id
  /-- A tip is for a contribution that is there. -/
  tips : ∀ i t, db.tips.get? i = some t → t.contributionId < db.contributions.next

theorem Booked.does {total : ℤ} (h : Booked total db) (hd : Does db c db') : Booked total db' := by
  obtain ⟨rfl, hrows, htips⟩ := h
  cases hd with
  | same => exact ⟨rfl, hrows, htips⟩
  | submitted =>
    refine ⟨by rw [Db.balance, sum_insert, sub_self, add_zero, Db.balance], fun id c hc => ?_,
      fun i t ht => (htips i t ht).trans (Nat.lt_succ_self _)⟩
    obtain ⟨rfl, rfl⟩ | hc := get?_insert_cases hc
    · -- no tip is for the next contribution
      have hno (i : ℕ) (t : Tip) (ht : db.tips.get? i = some t) :
          t.contributionId ≠ db.contributions.next := (htips i t ht).ne
      exact ⟨le_rfl, le_rfl, (Table.sum_eq_zero fun i t ht => if_neg (hno i t ht)).symm,
        (count_eq_zero_iff.2 hno).symm⟩
    · exact hrows id c hc
  | touched _ _ a _ ha htip hcount hwith =>
    refine ⟨?_, fun j c hc => ?_, htips⟩
    · rw [Db.balance, Db.update, sum_modify ha, htip, hwith, Db.balance]
      ring
    · obtain ⟨rfl, rfl⟩ | ⟨-, hc⟩ := get?_modify_cases ha hc
      · rw [Contribution.Agrees, htip, hcount, hwith]
        exact hrows _ a ha
      · exact hrows j c hc
  | tipped _ a u t ha hu hpos hle =>
    refine ⟨?_, fun j c hc => ?_, fun i t' ht => ?_⟩
    · rw [Db.balance, Db.update, walletTotal_addQuota hu, sum_modify ha, Db.balance]
      ring
    · simp only [Db.update, Contribution.Agrees, sum_insert, Table.count_insert]
      obtain ⟨rfl, rfl⟩ | ⟨hne, hc⟩ := get?_modify_cases ha hc
      · obtain ⟨hnonneg, hwith, htip, hcount⟩ := hrows _ a ha
        rw [if_pos rfl, if_pos rfl, ← htip, ← hcount]
        refine ⟨hnonneg, ?_, rfl, rfl⟩
        show a.withdrawnQuota ≤ a.tipQuota + t.quota
        omega
      · rw [if_neg (Ne.symm hne), if_neg (Ne.symm hne), add_zero, add_zero]
        exact hrows j c hc
    · obtain ⟨-, rfl⟩ | ht := get?_insert_cases ht
      · exact lt_next_of_get? (t := db.contributions) ha
      · exact htips i t' ht
  | withdrawn _ _ _ a _ delta ha hu =>
    refine ⟨?_, fun j c hc => ?_, htips⟩
    · rw [Db.balance, Db.update, walletTotal_addQuota hu, sum_modify ha, Db.balance]
      ring
    · obtain ⟨rfl, rfl⟩ | ⟨-, hc⟩ := get?_modify_cases ha hc
      · obtain ⟨hnonneg, hwith, hbooked⟩ := hrows _ a ha
        refine ⟨?_, ?_, hbooked⟩
        · show 0 ≤ a.withdrawnQuota + delta
          omega
        · show a.withdrawnQuota + delta ≤ a.tipQuota
          omega
      · exact hrows j c hc

/-- **Tips conserve quota**: in every run the wallets and what the contributions hold add up to the
wallets at the start, and the ledger of a contribution agrees with its tips. A call leaves a wallet
as it is, lowers it to zero at the lowest, or is a withdrawal by the owner of the contribution. -/
theorem tips_conserved (users : Table User) (calls : List Call) :
    let db := run exec ⟨users, .empty, .empty⟩ calls
    db.balance = walletTotal users ∧
    (∀ id c, db.contributions.get? id = some c → c.Agrees db.tips id) ∧
    ∀ c user, let wallet := walletOf (exec c db).users user
      wallet = walletOf db.users user ∨ wallet < walletOf db.users user ∧ 0 ≤ wallet ∨
        ∃ id targetGroup quotaPerUnit a, c = .withdraw id user targetGroup quotaPerUnit ∧
          db.contributions.get? id = some a ∧ a.userId = user := by
  intro db
  have hstart : Booked (walletTotal users) ⟨users, .empty, .empty⟩ := ⟨add_zero _, nofun, nofun⟩
  have hdb : Booked (walletTotal users) db :=
    run_rule_any (P := Booked _) (fun db c h => h.does (exec_does c db)) hstart calls
  refine ⟨hdb.balance, hdb.rows, fun c user => ?_⟩
  have hd := exec_does c db
  generalize exec c db = db' at hd
  cases hd with
  | same | submitted | touched => exact .inl rfl
  | tipped _ a u t ha hu hpos hle =>
    simp only [Db.update, walletOf_addQuota hu]
    split
    next heq =>
      rw [heq, walletOf, hu, elim_some]
      exact .inr (.inl ⟨by omega, by omega⟩)
    · exact .inl (add_zero _)
  | withdrawn id targetGroup quotaPerUnit a _ _ ha hu =>
    simp only [Db.update, walletOf_addQuota hu]
    split
    next heq => exact .inr (.inr ⟨id, targetGroup, quotaPerUnit, a, heq ▸ rfl, ha, heq.symm⟩)
    · exact .inl (add_zero _)

end LmmApi.PublicRelay
