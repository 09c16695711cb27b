import LmmApi.Lib.Attribution
import LmmApi.Lib.Table

/-!
# Backup codes

A backup code stands in for the second factor of a user once. `ValidateBackupCode` looks for the row
of the code in one statement and uses it in another; `verifyAssistantKeyTwoFactorTx` does both under
row locks; and new sets of codes delete the old rows softly in between. Transactions are single
steps, and so are the two statements of `ValidateBackupCode`.

A code is what `NormalizeBackupCode` makes of it, and its hash stands for it. The lock of a factor
only makes calls fail: a locked call is a step that does not take place.
-/

namespace LmmApi.TwoFactor

open Attribution Function Option Table

/-- `TwoFABackupCode`. -/
structure BackupCode where
  userId : ℕ
  code : String
  isUsed : Bool := false
  deleted : Bool := false

structure Db where
  codes : Table BackupCode
  /-- `IsEnabled` of the row of a user in `TwoFA`. -/
  factors : ℕ → Option Bool
  /-- The users and codes of calls, with the rows that they have found. -/
  found : List (ℕ × String × ℕ)

/-- What the format checks find in the code of a call: a numeric code has six characters besides its
spaces, and a backup code eight letters and digits besides its dashes. -/
inductive Input
  /-- A numeric code, and whether `ValidateTOTPCode` accepts it. -/
  | numeric (valid : Bool)
  | backup (code : String)

inductive Step
  /-- `CreatePendingTwoFASetup`. -/
  | setup (userId : ℕ)
  /-- `EnableWithAuthVersion`. -/
  | enable (userId : ℕ)
  /-- `ReplaceBackupCodesWithAuthVersion` for an enabled factor, and
  `CreatePendingTwoFASetupBackupCodes` for a pending one. -/
  | replace (userId : ℕ) (enabled : Bool) (codes : List String)
  /-- `DisableTwoFAWithAuthVersion` for an enabled factor, and `DeletePendingTwoFASetup` for a
  pending one. -/
  | remove (userId : ℕ) (enabled : Bool)
  /-- `ValidateBackupCode` looks for the code. -/
  | scan (userId : ℕ) (code : String)
  /-- `ValidateBackupCode` uses the row that it has found. -/
  | use (userId : ℕ) (code : String) (row : ℕ)
  /-- `verifyAssistantKeyTwoFactorTx`. -/
  | verify (userId : ℕ) (input : Input)

namespace Step

/-- The step takes the codes of a user away. -/
def retires (db : Db) : Step → Option ℕ
  | replace userId enabled _ | remove userId enabled =>
    if db.factors userId = some enabled then some userId else none
  | _ => none

def Generates (userId : ℕ) (code : String) : Step → Prop
  | replace u _ codes => u = userId ∧ code ∈ codes
  | _ => False

end Step

/-- The first unused row with the code. -/
def Db.find (db : Db) (userId : ℕ) (code : String) : Option (ℕ × BackupCode) :=
  db.codes.first? fun _ b => b.userId = userId ∧ b.code = code ∧ b.isUsed = false ∧ b.deleted = false

/-- A call succeeds, with the row that it uses if it uses one. -/
def Step.accepts (db : Db) : Step → Option (Option ℕ)
  | use userId code row =>
    (db.codes.get? row).bind fun b =>
      if (userId, code, row) ∈ db.found ∧ b.isUsed = false ∧ b.deleted = false then some (some row)
      else none
  | verify userId input =>
    -- a user without a factor, or with a pending one, needs no code
    if db.factors userId ≠ some true then some none
    else match input with
      | .numeric valid => if valid then some none else none
      | .backup code => (db.find userId code).map (some ·.1)
  | _ => none

def exec (s : Step) (db : Db) : Db :=
  match s with
  | .setup userId =>
    if db.factors userId = none then { db with factors := update db.factors userId (some false) }
    else db
  | .enable userId =>
    if db.factors userId = some false then
      { db with factors := update db.factors userId (some true) }
    else db
  | .replace userId enabled codes =>
    if db.factors userId = some enabled then
      let old := db.codes.modifyWhere (fun _ b => b.userId = userId) fun b => { b with deleted := true }
      { db with codes := (codes.map fun code => { userId, code }).foldl Table.insert old }
    else db
  | .remove userId enabled =>
    if db.factors userId = some enabled then { db with
      codes := db.codes.eraseWhere fun _ b => b.userId = userId
      factors := update db.factors userId none }
    else db
  | .scan userId code => { db with
      found := (db.find userId code).elim db.found fun r => (userId, code, r.1) :: db.found }
  | .use .. | .verify .. => { db with
      codes := (s.accepts db).join.elim db.codes fun row =>
        db.codes.modify row fun b => { b with isUsed := true } }

/-- A call succeeds with a backup code. -/
def Accepts (userId : ℕ) (code : String) (s : Step) (db : Db) : Prop :=
  (s.accepts db).isSome ∧ ((∃ row, s = .use userId code row) ∨ s = .verify userId (.backup code))

/-! ## What a step does to the rows -/

variable {db : Db} {s : Step} {userId r : ℕ} {code : String} {b' : BackupCode}

/-- The row that a call uses is neither used nor deleted. -/
theorem accepts_row (h : s.accepts db = some (some r)) :
    ∃ b, db.codes.get? r = some b ∧ b.isUsed = false ∧ b.deleted = false ∧
      ((∃ u c, s = .use u c r ∧ (u, c, r) ∈ db.found) ∨ s = .verify b.userId (.backup b.code)) ∧
      exec s db = { db with codes := db.codes.modify r fun b => { b with isUsed := true } } := by
  have hex := h
  cases s with
  | use u c =>
    obtain ⟨b, hb, h⟩ := bind_eq_some_iff.1 h
    split at h
    case isTrue hf =>
      cases h
      exact ⟨b, hb, hf.2.1, hf.2.2, .inl ⟨u, c, rfl, hf.1⟩, by rw [exec, hex]; rfl⟩
    case isFalse => cases h
  | verify u input =>
    simp only [Step.accepts] at h
    split at h
    case isTrue => cases h
    case isFalse =>
      cases input with
      | numeric =>
        simp only at h
        split at h <;> cases h
      | backup =>
        obtain ⟨⟨r, b⟩, hfind, heq⟩ := map_eq_some_iff.1 h
        cases heq
        obtain ⟨hb, rfl, rfl, hunused, hdel⟩ := first?_eq_some hfind
        exact ⟨b, hb, hunused, hdel, .inr rfl, by rw [exec, hex]; rfl⟩
  | _ => cases h

theorem next_le_exec (s : Step) (db : Db) : db.codes.next ≤ (exec s db).codes.next := by
  cases s with
  | replace =>
    rw [exec]
    split
    case isTrue =>
      rw [next_foldl_insert]
      exact Nat.le_add_right ..
    case isFalse => exact le_rfl
  | setup | enable | remove =>
    rw [exec]
    split <;> exact le_rfl
  | scan => exact le_rfl
  | use | verify =>
    rw [exec]
    cases (Step.accepts db _).join <;> exact le_rfl

/-- **What a step does to a row**: it is a new one with a generated code, or it was there, and one
that was used or deleted, or belongs to a user whose codes are taken away, is so now. -/
theorem exec_rows (hb' : (exec s db).codes.get? r = some b') :
    db.codes.next ≤ r ∧ s.Generates b'.userId b'.code ∨
    ∃ b, db.codes.get? r = some b ∧ b'.userId = b.userId ∧ b'.code = b.code ∧
      (b.isUsed → b'.isUsed) ∧ (b.deleted ∨ s.retires db = some b.userId → b'.deleted) := by
  have same (hb : db.codes.get? r = some b') (hret : s.retires db ≠ some b'.userId) :
      ∃ b, db.codes.get? r = some b ∧ b'.userId = b.userId ∧ b'.code = b.code ∧
      (b.isUsed → b'.isUsed) ∧ (b.deleted ∨ s.retires db = some b.userId → b'.deleted) :=
    ⟨b', hb, rfl, rfl, id, fun h => h.resolve_right hret⟩
  cases s with
  | replace =>
    rw [exec] at hb'
    split at hb'
    case isTrue hf =>
      obtain hb' | ⟨hr, hnew⟩ := get?_foldl_insert_cases hb'
      · rw [get?_modifyWhere] at hb'
        obtain ⟨b, hb, rfl⟩ := map_eq_some_iff.1 hb'
        refine .inr ⟨b, hb, ?_⟩
        split
        case isTrue => exact ⟨rfl, rfl, id, fun _ => rfl⟩
        case isFalse hu =>
          rw [Step.retires, if_pos hf]
          exact ⟨rfl, rfl, id, fun h => h.resolve_right fun hret => hu (some.inj hret).symm⟩
      · obtain ⟨_, hc, rfl⟩ := List.mem_map.1 hnew
        exact .inl ⟨hr, rfl, hc⟩
    case isFalse hf => exact .inr (same hb' (by rw [Step.retires, if_neg hf]; nofun))
  | remove =>
    rw [exec] at hb'
    split at hb'
    case isTrue hf =>
      obtain ⟨hb, hu⟩ := get?_eraseWhere_eq_some.1 hb'
      refine .inr (same hb fun hret => ?_)
      rw [Step.retires, if_pos hf] at hret
      exact hu (some.inj hret).symm
    case isFalse hf => exact .inr (same hb' (by rw [Step.retires, if_neg hf]; nofun))
  | setup | enable =>
    rw [exec] at hb'
    split at hb' <;> exact .inr (same hb' nofun)
  | scan => exact .inr (same hb' nofun)
  | use | verify =>
    cases huses : (Step.accepts db _).join with
    | none => exact .inr (same (by rwa [exec, huses] at hb') nofun)
    | some =>
      obtain ⟨b, hb, -, -, -, hex⟩ := accepts_row (join_eq_some_iff.1 huses)
      rw [hex] at hb'
      obtain ⟨rfl, rfl⟩ | ⟨-, hold⟩ := get?_modify_cases hb hb'
      · exact .inr ⟨b, hb, rfl, rfl, fun _ => rfl, fun h => h.resolve_right nofun⟩
      · exact .inr (same hold nofun)

/-- The rows that calls have found have their codes, as long as they are there. -/
def Sound (db : Db) : Prop := ∀ u c r, (u, c, r) ∈ db.found →
  r < db.codes.next ∧ ∀ b, db.codes.get? r = some b → b.userId = u ∧ b.code = c

theorem sound_exec (s : Step) (h : Sound db) : Sound (exec s db) := by
  intro u c r hx
  have hbef : r < db.codes.next ∧ ∀ b, db.codes.get? r = some b → b.userId = u ∧ b.code = c := by
    cases s with
    | scan u' c' =>
      simp only [exec] at hx
      cases hfind : db.find u' c' with
      | none => exact h u c r (by rwa [hfind] at hx)
      | some =>
        rw [hfind] at hx
        obtain heq | hx := List.mem_cons.1 hx
        · cases heq
          obtain ⟨hb, hu, hc, -⟩ := first?_eq_some hfind
          exact ⟨lt_next_of_get? hb, fun b hb' => mem_unique hb hb' ▸ ⟨hu, hc⟩⟩
        · exact h u c r hx
    | setup | enable | replace | remove =>
      rw [exec] at hx
      split at hx <;> exact h u c r hx
    | use | verify => exact h u c r hx
  refine ⟨hbef.1.trans_le (next_le_exec s db), fun b' hb' => ?_⟩
  obtain ⟨hr, -⟩ | ⟨b, hb, hu, hc, -⟩ := exec_rows hb'
  · exact absurd hbef.1 (not_lt.2 hr)
  · rw [hu, hc]
    exact hbef.2 b hb

/-- If every row with a backup code is deleted, a call succeeds with the code only for a user
without an enabled factor. -/
theorem accepts_of_deleted (hdb : Sound db) (hdel : ∀ r b, db.codes.get? r = some b →
      b.userId = userId → b.code = code → b.deleted) (h : Accepts userId code s db) :
    s = .verify userId (.backup code) ∧ db.factors userId ≠ some true := by
  obtain ⟨hacc, hcall⟩ := h
  -- a call for a user with an enabled factor uses a row
  have hno {row} (huses : s.accepts db = some (some row)) : False := by
    obtain ⟨b, hb, -, hlive, hby, -⟩ := accepts_row huses
    have hcode : b.userId = userId ∧ b.code = code := by
      obtain ⟨u, c, rfl, hx⟩ | rfl := hby
      · obtain ⟨_, hcall⟩ | hcall := hcall <;> cases hcall
        exact (hdb _ _ _ hx).2 b hb
      · obtain ⟨_, hcall⟩ | hcall := hcall <;> cases hcall
        exact ⟨rfl, rfl⟩
    simp [hdel row b hb hcode.1 hcode.2] at hlive
  obtain ⟨row, rfl⟩ | rfl := hcall
  · obtain ⟨_, hused⟩ := isSome_iff_exists.1 hacc
    have hrow := hused
    obtain ⟨b, -, hused⟩ := bind_eq_some_iff.1 hused
    split at hused <;> cases hused
    exact (hno hrow).elim
  · refine ⟨rfl, fun hf => ?_⟩
    obtain ⟨_, hused⟩ := isSome_iff_exists.1 hacc
    have hrow := hused
    simp only [Step.accepts, hf, ne_eq, not_true, if_false] at hused
    obtain ⟨_, -, rfl⟩ := map_eq_some_iff.1 hused
    exact hno hrow

/-- **Backup codes are single use**: in every run a row makes at most one call succeed. From the
step on that takes the codes of a user away, a call succeeds with a code that is not generated again
exactly if it is a `verifyAssistantKeyTwoFactorTx` for a user without an enabled factor. -/
theorem backup_codes_single_use (steps : List Step) :
    let db := run exec ⟨.empty, fun _ => none, []⟩ steps
    (∀ s row later, s.accepts db = some (some row) →
      ¬Occurs exec (fun s db => s.accepts db = some (some row)) (exec s db) later) ∧
    ∀ s userId code later, s.retires db = some userId → ¬s.Generates userId code →
      Along exec (fun s _ => ¬s.Generates userId code) (exec s db) later →
      Along exec (fun s db => Accepts userId code s db ↔
        s = .verify userId (.backup code) ∧ db.factors userId ≠ some true) (exec s db) later := by
  intro db
  have hdb : Sound db := run_rule_any (P := Sound) (fun _ => sound_exec)
    (fun _ _ _ hx => absurd hx List.not_mem_nil) steps
  refine ⟨fun s row later huses => ?_, fun s userId code later hret hgen hlater => ?_⟩
  · obtain ⟨b, hb, -, -, -, hex⟩ := accepts_row huses
    have hrow : (exec s db).codes.get? row = some { b with isUsed := true } := by
      rw [hex, get?_modify_self, hb]
      rfl
    -- the row stays used, and a new row has another key
    refine not_occurs (Q := fun db => row < db.codes.next ∧
      ∀ b, db.codes.get? row = some b → b.isUsed) (fun db s _ hq huses => ?_) (fun db s _ hq => ?_)
      ⟨lt_next_of_get? hrow, fun b' hb' => mem_unique hrow hb' ▸ rfl⟩
      (along_of_forall (fun _ _ => trivial) _ later)
    · obtain ⟨b, hb, hunused, -⟩ := accepts_row huses
      exact absurd (hq.2 b hb) (by simp [hunused])
    · refine ⟨hq.1.trans_le (next_le_exec s db), fun b' hb' => ?_⟩
      obtain ⟨hr, -⟩ | ⟨b, hb, -, -, hused, -⟩ := exec_rows hb'
      · exact absurd hq.1 (not_lt.2 hr)
      · exact hused (hq.2 b hb)
  · -- every row with the code is deleted
    refine hlater.of_invariant (P := fun db => Sound db ∧ ∀ r b, db.codes.get? r = some b →
      b.userId = userId → b.code = code → b.deleted) (fun db s _ hq => ⟨fun hacc => ?_, ?_⟩)
      (fun db s hgen hq => ⟨sound_exec s hq.1, fun r b' hb' hu hc => ?_⟩)
      ⟨sound_exec s hdb, fun r b' hb' hu hc => ?_⟩
    · exact accepts_of_deleted hq.1 hq.2 hacc
    · rintro ⟨rfl, hf⟩
      exact ⟨by rw [Step.accepts, if_pos hf]; rfl, .inr rfl⟩
    · obtain ⟨-, hnew⟩ | ⟨b, hb, hu', hc', -, hdel⟩ := exec_rows hb'
      · exact absurd (hu ▸ hc ▸ hnew) hgen
      · exact hdel (.inl (hq.2 r b hb (hu' ▸ hu) (hc' ▸ hc)))
    · obtain ⟨-, hnew⟩ | ⟨b, hb, hu', -, -, hdel⟩ := exec_rows hb'
      · exact absurd (hu ▸ hc ▸ hnew) hgen
      · exact hdel (.inr (by rw [hret, ← hu, hu']))

/-- A call has found a code when a new set replaces it, and does not succeed. Only when the factor is
gone does `verifyAssistantKeyTwoFactorTx` accept the code. -/
theorem backup_codes_single_use_replaced :
    Along exec (fun s db => Accepts 1 "AAAA-AAAA" s db ↔
        s = .verify 1 (.backup "AAAA-AAAA") ∧ db.factors 1 ≠ some true)
      (run exec ⟨.empty, fun _ => none, []⟩ [.setup 1, .replace 1 false ["AAAA-AAAA"], .enable 1,
        .scan 1 "AAAA-AAAA", .replace 1 true ["BBBB-BBBB"]])
      [.use 1 "AAAA-AAAA" 1, .verify 1 (.backup "AAAA-AAAA"), .verify 1 (.backup "BBBB-BBBB"),
        .remove 1 true, .verify 1 (.backup "AAAA-AAAA")] :=
  (backup_codes_single_use [.setup 1, .replace 1 false ["AAAA-AAAA"], .enable 1,
    .scan 1 "AAAA-AAAA"]).2 (.replace 1 true ["BBBB-BBBB"]) 1 "AAAA-AAAA" _ (by decide +kernel)
    (fun h => absurd h.2 (by decide)) ⟨id, id, id, id, id, trivial⟩

/-- After `DisableTwoFAWithAuthVersion`, `verifyAssistantKeyTwoFactorTx` succeeds with a code of the
set that it has deleted. -/
theorem deleted_code_accepted :
    let db := run exec ⟨.empty, fun _ => none, []⟩
      [.setup 1, .replace 1 false ["AAAA-AAAA"], .enable 1]
    Step.retires db (.remove 1 true) = some 1 ∧
      Accepts 1 "AAAA-AAAA" (.verify 1 (.backup "AAAA-AAAA")) (exec (.remove 1 true) db) :=
  ⟨by decide +kernel, by decide +kernel, .inr rfl⟩

end LmmApi.TwoFactor
