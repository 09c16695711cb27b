import LmmApi.Responses.Session

/-!
# Duties in a session

A prepared call has to be refunded or charged. An instruction `owes` this for a call if it, or what
follows from it, finalizes the call; it `finishes` a call that a thread has begun to finish, `opens`
one that is to become current, and `tends` the calls that will be failed if they are current. `Move`
lists what an instruction can do to these duties.
-/

namespace LmmApi.Responses

open Threads List Option

/-- The call that an entry of the log finalizes. -/
def Billing.finalizes : Billing → Option ℕ
  | refund c | consume c _ => some c
  | commitRate _ => none

namespace Session

variable (s : Session) (c : ℕ)

/-- How often a call was finalized. -/
def finals : ℕ := (s.log.filterMap Billing.finalizes).count c

/-- The call is current, and nobody has begun to finish it. -/
def Open : Prop := s.current = some c ∧ (s.calls c).finishing = false
  deriving Decidable

/-- Two sessions agree on what the duties depend on. -/
structure SameDuties (s s' : Session) : Prop where
  current : s'.current = s.current
  finishing : ∀ c, (s'.calls c).finishing = (s.calls c).finishing
  prepared : s'.prepared = s.prepared
  finals : ∀ c, s'.finals c = s.finals c

theorem SameDuties.open_iff {s s' : Session} (h : s.SameDuties s') (c : ℕ) :
    s'.Open c ↔ s.Open c := by
  rw [Open, Open, h.current, h.finishing]

theorem SameDuties.refl : s.SameDuties s := ⟨rfl, fun _ => rfl, rfl, fun _ => rfl⟩

theorem SameDuties.trans {s₁ s₂ s₃ : Session} (h : s₁.SameDuties s₂) (h' : s₂.SameDuties s₃) :
    s₁.SameDuties s₃ where
  current := h'.current.trans h.current
  finishing c := (h'.finishing c).trans (h.finishing c)
  prepared := h'.prepared.trans h.prepared
  finals c := (h'.finals c).trans (h.finals c)

theorem sameDuties_updateCall {f : Call → Call}
    (hf : ∀ call, (f call).finishing = call.finishing) : s.SameDuties (s.updateCall c f) := by
  refine ⟨rfl, fun c' => ?_, rfl, fun _ => rfl⟩
  by_cases hc : c' = c
  · subst hc
    simp [updateCall, hf]
  · simp [updateCall, hc]

theorem finals_bill (b : Billing) (c : ℕ) :
    (s.bill b).finals c = s.finals c + if b.finalizes = some c then 1 else 0 := by
  cases hb : b.finalizes with
  | none => simp [finals, bill, hb]
  | some c' => by_cases hc : c' = c <;> simp [finals, bill, hb, hc, count_append]

end Session

namespace Instr

/-- The call that an instruction has to finalize, itself or by what follows from it. -/
def owes : Instr → Option ℕ
  | dial _ _ c | setTarget _ _ c _ | reserveFirst _ _ c | reserveExisting c | checkPartial c _
  | commitUsage c | consume c | refund c => some c
  | _ => none

/-- The call that an instruction has begun to finish. -/
def finishes : Instr → Option ℕ
  | checkPartial c _ | commitUsage c | completeFinish c => some c
  | _ => none

/-- The call that an instruction is to make current. -/
def opens : Instr → Option ℕ
  | dial _ _ c | setTarget _ _ c _ | reserveFirst _ _ c | reserveExisting c => some c
  | _ => none

/-- The main loop is at this instruction. -/
def isControl : Instr → Bool
  | readClient | handleCreate _ | checkTarget _ | connect _ _ | dial _ _ _ | setTarget _ _ _ _
  | reserveFirst _ _ _ | writeFirst _ _ _ | retryConnect _ _ | register | startReader
  | prepareExisting | reserveExisting _ | writeExisting _ | handleCancel | cancelTarget
  | writeCancel | control | writeControl => true
  | _ => false

/-- Whatever call is current will be failed: the main loop does so before it returns. -/
def failsAny (i : Instr) : Bool := i = failCurrent ∨ i.isControl

/-- The instruction takes care that the call is finished if it is current. -/
def tends (c : ℕ) : Instr → Bool
  | beginFinish c' _ => c' = c
  | i => i.failsAny

/-- The instruction concerns no call of its own. -/
def isIdle (i : Instr) : Bool := i.owes = none ∧ i.finishes = none ∧ i.opens = none

theorem tends_of_failsAny {i : Instr} (h : i.failsAny) (c : ℕ) : i.tends c := by
  cases i <;> first | exact h | simp [failsAny, isControl] at h

end Instr

/-- The indicator of the instructions with the call `c` under `f`. -/
def token (f : Instr → Option ℕ) (c : ℕ) (i : Instr) : ℕ := if f i = some c then 1 else 0

/-! ## What an instruction can do -/

variable {env : Env} {i : Instr} {a : Answer} {s : Session} {e : Effect Session Tag Instr}

/-- What is left to do after an instruction has the same duties as the instruction. -/
structure HandsOn (i : Instr) (s : Session) (next : List Instr) : Prop where
  owes : ∀ c, (next.map (token Instr.owes c)).sum = token Instr.owes c i
  finishes : ∀ c, (next.map (token Instr.finishes c)).sum = token Instr.finishes c i
  opens : ∀ c, (next.map (token Instr.opens c)).sum ≤ token Instr.opens c i
  care : ∀ c, s.Open c → i.tends c → ∃ j ∈ next, j.tends c

theorem sum_token (f : Instr → Option ℕ) (c : ℕ) (next : List Instr) :
    (next.map (token f c)).sum = (next.filterMap f).count c := by
  induction next with
  | nil => rfl
  | cons j _ ih =>
    rw [map_cons, sum_cons, ih, token]
    cases hj : f j with
    | none => simp [hj]
    | some c' => by_cases hc : c' = c <;> simp [hj, hc, add_comm]

theorem count_toList (f : Instr → Option ℕ) (c : ℕ) (i : Instr) :
    (f i).toList.count c = token f c i := by
  rw [token]
  cases hi : f i with
  | none => rfl
  | some c' => by_cases hc : c' = c <;> simp [hc]

variable {next : List Instr} {s' : Session}

theorem HandsOn.of_idle (hi : i.isIdle) (hn : next.all Instr.isIdle)
    (hcare : ∀ c, s.Open c → i.tends c → ∃ j ∈ next, j.tends c) : HandsOn i s next := by
  simp only [List.all_eq_true, Instr.isIdle, decide_eq_true_eq] at hn hi
  have hnil {f : Instr → Option ℕ} (hf : ∀ j ∈ next, f j = none) : next.filterMap f = [] :=
    filterMap_eq_nil_iff.2 hf
  refine ⟨fun c => ?_, fun c => ?_, fun c => ?_, hcare⟩
  · rw [sum_token, hnil fun j hj => (hn j hj).1, ← count_toList, hi.1, toList_none]
  · rw [sum_token, hnil fun j hj => (hn j hj).2.1, ← count_toList, hi.2.1, toList_none]
  · rw [sum_token, hnil fun j hj => (hn j hj).2.2]
    exact Nat.zero_le _

/-- What is owed for one call is handed on to one instruction. -/
theorem HandsOn.of_owed {c : ℕ} (howes : i.owes = some c := by rfl)
    (hn : next.filterMap Instr.owes = [c] := by rfl)
    (hfin : next.filterMap Instr.finishes = i.finishes.toList := by rfl)
    (hope : next.filterMap Instr.opens = [] ∨ next.filterMap Instr.opens = i.opens.toList := by
      first | exact .inl rfl | exact .inr rfl)
    (hcare : next.any Instr.failsAny ∨ ∀ c, i.tends c = false := by
      first | exact .inl rfl | exact .inr fun _ => rfl) : HandsOn i s next := by
  refine ⟨fun c => ?_, fun c => ?_, fun c => ?_, fun c _ ht => ?_⟩
  · rw [sum_token, hn, token, howes]
    simp [count_singleton]
  · rw [sum_token, hfin, count_toList]
  · rw [sum_token, ← count_toList]
    obtain hope | hope := hope <;> simp [hope]
  · rw [or_iff_left fun hno => by simp [hno c] at ht] at hcare
    obtain ⟨j, hj, hfai⟩ := List.any_eq_true.1 hcare
    exact ⟨j, hj, Instr.tends_of_failsAny hfai c⟩

/-- What an instruction can do to the duties. -/
inductive Move (i : Instr) (s : Session) (e : Effect Session Tag Instr) : Prop
  /-- Duties are handed on. -/
  | passed (hsame : s.SameDuties e.shared) (hnext : HandsOn i s e.next)
      (hspawned : e.spawned.all fun t => t.code.all Instr.isIdle)
  /-- A call is prepared, and the main loop is to make it current. -/
  | prepared (data : CallData) (j : Instr) (hi : i.isIdle) (he : e = ⟨s.prepare data, [j], []⟩)
      (hcontrol : j.isControl) (howes : j.owes = some s.prepared) (hfinishes : j.finishes = none)
      (hopens : j.opens = some s.prepared)
  | reserved (c : ℕ) (j : Instr) (howes : i.owes = some c) (hopens : i.opens = some c)
      (hfinishes : i.finishes = none) (hcurrent : s.current = none)
      (he : e = ⟨{ s with current := some c }, [j], []⟩) (hcontrol : j.isControl) (hj : j.isIdle)
  | begun (c : ℕ) (success : Bool) (hi : i = .beginFinish c success) (hopen : s.Open c)
      (he : e = ⟨s.updateCall c fun call => { call with finishing := true },
        [.checkPartial c success], []⟩)
  | finalized (c : ℕ) (b : Billing) (howes : i.owes = some c) (hfinishes : i.finishes = none)
      (hopens : i.opens = none) (htends : ∀ c, i.tends c = false) (hb : b.finalizes = some c)
      (he : e = ⟨s.bill b, [], []⟩)
  | completed (c : ℕ) (hi : i = .completeFinish c)
      (he : e = ⟨if s.current = some c then { s with current := none } else s, [], []⟩)

/-- A jump that hands the duties on. -/
theorem Move.of_goto (h : goto s' next = some e) (hn : HandsOn i s next)
    (hs : s.SameDuties s' := by exact ⟨rfl, fun _ => rfl, rfl, fun _ => rfl⟩) : Move i s e := by
  obtain rfl := goto_eq_some h
  exact .passed hs hn rfl

/-- A jump from an instruction that has no duties. -/
theorem Move.free (h : goto s' next = some e)
    (hs : s.SameDuties s' := by exact ⟨rfl, fun _ => rfl, rfl, fun _ => rfl⟩) (hi : i.isIdle := by rfl)
    (hn : next.all Instr.isIdle := by rfl) (hten : ∀ c, i.tends c = false := by exact fun _ => rfl) :
    Move i s e :=
  .of_goto h (.of_idle hi hn fun c _ ht => absurd ht (by rw [hten c]; nofun)) hs

/-- A jump between instructions without a call of their own. -/
theorem Move.idle (h : goto s' next = some e)
    (hs : s.SameDuties s' := by exact ⟨rfl, fun _ => rfl, rfl, fun _ => rfl⟩) (hi : i.isIdle := by rfl)
    (hn : next.all Instr.isIdle := by rfl) (hcare : next.any Instr.failsAny := by rfl) :
    Move i s e := by
  refine .of_goto h (.of_idle hi hn fun c _ _ => ?_) hs
  obtain ⟨j, hj, hfai⟩ := List.any_eq_true.1 hcare
  exact ⟨j, hj, Instr.tends_of_failsAny hfai c⟩

theorem tryReserveCurrent_move {c : ℕ} {reserved : Instr} {refused : List Instr}
    (h : tryReserveCurrent c s [reserved] refused = some e) (howes : i.owes = some c)
    (hope : i.opens = some c) (hfin : i.finishes = none) (hcon : reserved.isControl)
    (hidle : reserved.isIdle) (href : HandsOn i s refused) : Move i s e := by
  rw [tryReserveCurrent] at h
  split at h
  case isTrue hcur => exact .reserved c reserved howes hope hfin hcur (goto_eq_some h) hcon hidle
  case isFalse => exact .of_goto h href

theorem writeCall_move {c : ℕ} {j : Instr} (h : writeCall c s' (fun _ => [j]) = some e)
    (hi : i.isIdle) (hj : j.isIdle) (hcon : j.isControl)
    (hs : s.SameDuties s' := by exact ⟨rfl, fun _ => rfl, rfl, fun _ => rfl⟩) : Move i s e := by
  rw [writeCall] at h
  split at h
  · exact .idle h (hs.trans (Session.sameDuties_updateCall s' c fun _ => rfl)) hi (by simp [hj])
      (by simp [Instr.failsAny, hcon])
  · cases h

/-- **What an instruction can do to the duties.** -/
theorem sem_move (h : sem env i a s = some e) : Move i s e := by
  cases i with
  | readClient | handleCreate | checkTarget | register | handleCancel | cancelTarget | control =>
    simp only [sem, readClient, handleCreate, checkTarget, register] at h
    repeat' split at h
    all_goals first | exact .idle h | cases h
  | connect =>
    simp only [sem, connect] at h
    split at h
    · exact .idle h
    · exact .idle h
    · exact .idle h
    · exact .prepared _ _ rfl (goto_eq_some h) rfl rfl rfl rfl
    · cases h
  | dial =>
    simp only [sem, dial] at h
    split at h
    · exact .of_goto h .of_owed
    · exact .of_goto h .of_owed
    · exact .of_goto h .of_owed
    · cases h
  | setTarget => exact .of_goto h .of_owed
  | reserveFirst | reserveExisting =>
    exact tryReserveCurrent_move h rfl rfl rfl rfl rfl .of_owed
  | writeFirst =>
    simp only [sem, writeFirst] at h
    split at h
    · exact writeCall_move h rfl rfl rfl
    · exact .idle h
    · exact .idle h
    · cases h
  | writeExisting =>
    simp only [sem, writeExisting] at h
    split at h
    · exact writeCall_move h rfl rfl rfl
    · exact .idle h
    · cases h
  | retryConnect => exact .idle h
  | startReader =>
    simp only [sem, startReader] at h
    split at h
    · cases h
      exact .passed (.refl s) (.of_idle rfl rfl fun c _ _ => ⟨.readClient, by simp, rfl⟩) rfl
    · exact .idle h
  | prepareExisting =>
    simp only [sem, prepareExisting] at h
    split at h
    · exact .idle h
    · exact .prepared _ _ rfl (goto_eq_some h) rfl rfl rfl rfl
    · cases h
  | writeCancel | writeControl =>
    cases a with
    | ok =>
      simp only [sem, writeEvent] at h
      split at h
      · cases h
      · exact .idle h
    | fail => exact .idle h
    | _ => cases h
  | closeWithCode =>
    simp only [sem, closeWithCode] at h
    split at h
    · exact .idle h
    · cases h
    · exact .free h
  | closed | closeTarget => exact .free h
  | failCurrent =>
    simp only [sem, failCurrent] at h
    split at h
    case h_1 _ hcur =>
      refine .of_goto h (.of_idle rfl rfl fun c' hop _ => ?_)
      simp [mem_unique hcur hop.1, Instr.tends]
    case h_2 hcur =>
      refine .of_goto h (.of_idle rfl rfl fun c' hop _ => ?_)
      cases hcur.symm.trans hop.1
  | beginFinish c success =>
    simp only [sem, beginFinish] at h
    split at h
    case isTrue hop => exact .begun c success rfl hop (goto_eq_some h)
    case isFalse hop =>
      refine .of_goto h (.of_idle rfl rfl fun c' hop' ht => ?_)
      obtain rfl : c = c' := by simpa [Instr.tends] using ht
      exact absurd hop' hop
  | checkPartial c =>
    simp only [sem, checkPartial] at h
    split at h
    · exact .of_goto h .of_owed
    · exact .of_goto h .of_owed (Session.sameDuties_updateCall s c fun _ => rfl)
  | commitUsage c =>
    exact .of_goto h .of_owed (Session.sameDuties_updateCall s c fun _ => rfl)
  | consume c | refund c => exact .finalized c _ rfl rfl rfl (fun _ => rfl) rfl (goto_eq_some h)
  | commitRate =>
    refine .free h ⟨rfl, fun _ => rfl, rfl, fun c => ?_⟩ rfl rfl fun _ => rfl
    rw [Session.finals_bill]
    rfl
  | completeFinish c => exact .completed c rfl (goto_eq_some h)
  | read =>
    cases a with
    | fail => exact .idle h
    | message => exact .free h
    | _ => cases h
  | observe =>
    simp only [sem, observe] at h
    split at h <;> exact .free h
  | apply c m =>
    simp only [sem, applyMessage] at h
    refine .free h (Session.sameDuties_updateCall s c fun _ => rfl) rfl ?_ fun _ => rfl
    cases ((s.calls c).data.observe env m).2 <;> rfl
  | writeClient =>
    cases a with
    | ok => exact .free h
    | fail => exact .idle h
    | _ => cases h

end LmmApi.Responses
