import LmmApi.Lib.Guarded
import LmmApi.Lib.Table

/-!
# Users and their wallets

The part of the `users` table that money moves on: the wallet `quota`, and the role, status and soft
deletion that decide who may act. A wallet changes only through guarded conditional updates that
keep the balance in the symmetric range of integers a JavaScript number represents exactly.
-/

namespace LmmApi

open Guarded List Table

/-- A row of the `users` table. -/
structure User where
  quota : ℤ
  role : ℤ
  status : ℤ
  deleted : Bool
  deriving DecidableEq

def roleAdminUser : ℤ := 10
def roleRootUser : ℤ := 100
def userStatusEnabled : ℤ := 1

def maxWalletQuota : ℤ := 2 ^ 53 - 1
def minWalletQuota : ℤ := -maxWalletQuota

/-- `ValidateWalletQuota`. -/
def ValidWalletQuota (quota : ℤ) : Prop := minWalletQuota ≤ quota ∧ quota ≤ maxWalletQuota
  deriving Decidable

/-- `walletQuotaCurrentBounds`: the balances from which `delta` stays in range. -/
def InWalletQuotaCurrentBounds (delta quota : ℤ) : Prop :=
  (if delta < 0 then minWalletQuota - delta else minWalletQuota) ≤ quota ∧
    quota ≤ if 0 < delta then maxWalletQuota - delta else maxWalletQuota
  deriving Decidable

/-- Change a wallet balance. -/
def User.addQuota (delta : ℤ) (u : User) : User := { u with quota := u.quota + delta }

/-- `UpdateWalletQuotaByDelta` on the row `id`, further restricted to `scope`. The error
`outOfRange` is the one of a `delta` that is no wallet amount, and `missed` the caller's when the
conditional update affects no row. -/
def updateWalletQuotaByDelta {ε : Type} (users : Table User) (id : ℕ) (scope : User → Prop)
    [DecidablePred scope] (delta : ℤ) (outOfRange missed : ε) : Except ε (Table User) := do
  require outOfRange (ValidWalletQuota delta)
  let user ← orFail (users.get? id) missed
  require missed (scope user ∧ InWalletQuotaCurrentBounds delta user.quota)
  return users.modify id (User.addQuota delta)

variable {ε : Type} {users users' : Table User} {scope : User → Prop} {id : ℕ} {delta : ℤ}
  {outOfRange missed : ε} {u : User}

/-- What a wallet update checks and does. -/
theorem updateWalletQuotaByDelta_eq_ok [DecidablePred scope] :
    updateWalletQuotaByDelta users id scope delta outOfRange missed = .ok users' ↔
      ValidWalletQuota delta ∧ ∃ u, users.get? id = some u ∧ scope u ∧
        InWalletQuotaCurrentBounds delta u.quota ∧
        users.modify id (User.addQuota delta) = users' := by
  simp only [updateWalletQuotaByDelta, eq_ok, and_assoc]

/-- A failed wallet update reports one of the two errors it was given. -/
theorem updateWalletQuotaByDelta_eq_error [DecidablePred scope] {e : ε}
    (h : updateWalletQuotaByDelta users id scope delta outOfRange missed = .error e) :
    e = outOfRange ∨ e = missed := by
  simp only [updateWalletQuotaByDelta, bind_eq_error, require_eq_error, orFail_eq_error,
    pure_ne_error, and_false, exists_false, or_false] at h
  rcases h with ⟨-, h⟩ | ⟨_, -, ⟨-, h⟩ | ⟨_, -, ⟨-, h⟩⟩⟩
  · exact .inl h.symm
  · exact .inr h.symm
  · exact .inr h.symm

/-! ## Balances -/

/-- The sum of all wallets. -/
def walletTotal (users : Table User) : ℤ := users.sum fun _ u => u.quota

/-- The wallet of a user, zero for a user that is not there. -/
def walletOf (users : Table User) (id : ℕ) : ℤ := (users.get? id).elim 0 User.quota

theorem walletTotal_addQuota (h : users.get? id = some u) (delta : ℤ) :
    walletTotal (users.modify id (User.addQuota delta)) = walletTotal users + delta := by
  unfold walletTotal
  rw [sum_modify h]
  simp only [User.addQuota]
  ring

theorem walletOf_addQuota (h : users.get? id = some u)
    (delta : ℤ) (j : ℕ) : walletOf (users.modify id (User.addQuota delta)) j =
      walletOf users j + if j = id then delta else 0 := by
  unfold walletOf
  rw [get?_modify]
  split
  · rename_i hj
    simp [hj, h, User.addQuota]
  · simp

/-- The wallets that differ, with the differences. -/
def walletChanges (before after : Table User) : List (ℕ × ℤ) :=
  before.rows.filterMap fun r =>
    if walletOf after r.1 = walletOf before r.1 then none
    else some (r.1, walletOf after r.1 - walletOf before r.1)

theorem walletChanges_self (users : Table User) : walletChanges users users = [] := by
  rw [walletChanges, filterMap_eq_nil_iff]
  exact fun r _ => if_pos rfl

theorem walletChanges_addQuota (h : users.get? id = some u) (hne : delta ≠ 0) :
    walletChanges users (users.modify id (User.addQuota delta)) = [(id, delta)] := by
  rw [walletChanges, ← filterMap_key h (id, delta)]
  refine filterMap_congr fun r _ => ?_
  rw [walletOf_addQuota h]
  by_cases hr : r.1 = id
  · rw [if_pos hr, if_pos hr, if_neg (by omega), hr]
    simp
  · rw [if_neg hr, if_neg hr, if_pos (by omega)]

/-- Wallets moved by a list of amounts: the total changes by their sum, and each wallet by the
amounts under its user. -/
structure Moved (users users' : Table User) (moves : List (ℕ × ℤ)) : Prop where
  total : walletTotal users' = walletTotal users + (moves.map Prod.snd).sum
  each : ∀ j, walletOf users' j =
    walletOf users j + (moves.map fun m => if j = m.1 then m.2 else 0).sum

theorem Moved.trans {users₁ users₂ users₃ : Table User} {moves₁ moves₂ : List (ℕ × ℤ)}
    (h₁ : Moved users₁ users₂ moves₁) (h₂ : Moved users₂ users₃ moves₂) :
    Moved users₁ users₃ (moves₁ ++ moves₂) where
  total := by
    rw [h₂.total, h₁.total, map_append, sum_append]
    ring
  each j := by
    rw [h₂.each, h₁.each, map_append, sum_append]
    ring

/-- A wallet update moves the one amount. -/
theorem moved_of_updateWalletQuotaByDelta [DecidablePred scope]
    (h : updateWalletQuotaByDelta users id scope delta outOfRange missed = .ok users') :
    Moved users users' [(id, delta)] := by
  obtain ⟨-, u, hu, -, -, rfl⟩ := updateWalletQuotaByDelta_eq_ok.1 h
  refine ⟨?_, fun j => ?_⟩
  · rw [walletTotal_addQuota hu]
    simp
  · rw [walletOf_addQuota hu]
    simp

end LmmApi
