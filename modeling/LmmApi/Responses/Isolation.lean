import LmmApi.Responses.Duties

/-!
# Connections and the calls they deliver to

A reader applies what its connection delivers to the call that is current at that time, whichever
connection the request of that call was written to. So the reader of a connection that was closed
after a failed write can finish, or add to, a call of the next connection. While no reader of an
earlier connection is left when a new one is dialed, and no reader runs between the reservation of a
call and the write of its request, every reader keeps to the calls of its own connection.
-/

namespace LmmApi.Responses

open Threads Attribution Function List Option Instr Session

/-- The thread reads an upstream connection. -/
def Tag.isReader : Tag → Bool
  | .reader _ => true
  | _ => false

namespace Instr

/-- The call that an instruction changes or finalizes. -/
def subject : Instr → Option ℕ
  | apply c _ | beginFinish c _ | checkPartial c _ | commitUsage c | consume c | refund c => some c
  | _ => none

def isDial : Instr → Bool
  | dial _ _ _ => true
  | _ => false

end Instr

def Answer.isOk : Answer → Bool
  | .ok => true
  | _ => false

/-- At a step of a reader, the calls it changes or finalizes are those whose request was written to
its connection. -/
def Isolated (env : Env) (l : Label Session Tag Instr Answer) (p : Pool Session Tag Instr) : Prop :=
  ∀ j answer k code, l = .step j answer → p.threads[j]? = some ⟨.reader k, code⟩ →
    ∀ c, ((exec (sem env) l p).shared.calls c ≠ p.shared.calls c ∨
      (exec (sem env) l p).shared.finals c ≠ p.shared.finals c) →
        (p.shared.calls c).written = some k

/-- All readers have ended. -/
def readersEnded (p : Pool Session Tag Instr) : Bool :=
  p.threads.all fun t => t.tag.isReader → t.code = []

/-- The request of the current call was written. -/
def Session.currentWritten (s : Session) : Bool := s.current.all fun c => (s.calls c).written.isSome

/-- A connection is dialed only when the readers of all others have ended, and a reader runs only
while no call is current whose request was not yet written. -/
def Separate (l : Label Session Tag Instr Answer) (p : Pool Session Tag Instr) : Bool :=
  match l with
  | .step j answer =>
    match p.threads[j]? with
    | some ⟨tag, i :: _⟩ =>
      (i.isDial ∧ answer.isOk → readersEnded p) ∧ (tag.isReader → p.shared.currentWritten)
    | _ => true
  | _ => true

/-! ## The instructions outside the main loop -/

variable {env : Env} {i j : Instr} {a : Answer} {s s' : Session} {e : Effect Session Tag Instr}

/-- What the instructions outside the main loop leave alone. -/
structure Aside (s s' : Session) : Prop where
  connections : s'.connections = s.connections
  prepared : s'.prepared = s.prepared
  written : ∀ c, (s'.calls c).written = (s.calls c).written
  target : s'.target = s.target ∨ s'.target = none
  current : s'.current = s.current ∨ s'.current = none

theorem Aside.refl (s : Session) : Aside s s := ⟨rfl, rfl, fun _ => rfl, .inl rfl, .inl rfl⟩

theorem aside_updateCall (s : Session) (c : ℕ) {f : Call → Call}
    (hf : ∀ call, (f call).written = call.written) : Aside s (s.updateCall c f) := by
  refine ⟨rfl, rfl, fun c' => ?_, .inl rfl, .inl rfl⟩
  by_cases hc : c' = c
  · subst hc
    simp [updateCall, hf]
  · simp [updateCall, hc]

/-- The call is changed or finalized. -/
def Touched (s s' : Session) (c : ℕ) : Prop := s'.calls c ≠ s.calls c ∨ s'.finals c ≠ s.finals c

theorem not_touched_of_eq (hcal : s'.calls = s.calls) (hlog : s'.log = s.log) (c : ℕ) :
    ¬ Touched s s' c := by
  rintro (h | h)
  · exact h (by rw [hcal])
  · exact h (by rw [finals, finals, hlog])

theorem eq_of_touched_updateCall {c c' : ℕ} {f : Call → Call} (h : Touched s (s.updateCall c f) c') :
    c = c' := by
  obtain h | h := h
  · by_contra hc
    exact h (update_of_ne (Ne.symm hc) _ _)
  · exact absurd rfl h

variable {p : Pool Session Tag Instr} {next : List Instr} {c : ℕ}

theorem eq_of_touched_bill {b : Billing} (h : Touched s (s.bill b) c) : b.finalizes = some c := by
  obtain h | h := h
  · exact absurd rfl h
  · by_contra hb
    exact h (by rw [finals_bill, if_neg hb, add_zero])

/-- What an instruction outside the main loop can do: it touches only its own subject, and hands on
this or the call that is current. -/
structure Helps (i : Instr) (s : Session) (e : Effect Session Tag Instr) : Prop where
  aside : Aside s e.shared
  next : ∀ j ∈ e.next, j.isControl = false ∧
    ∀ c, j.subject = some c → i.subject = some c ∨ s.current = some c
  spawned : e.spawned = []
  touched : ∀ c, Touched s e.shared c → i.subject = some c

/-- A jump to instructions that have no subject. -/
theorem Helps.of_goto (h : goto s' next = some e) (hasi : Aside s s' := by exact .refl s)
    (hcal : s'.calls = s.calls := by rfl) (hlog : s'.log = s.log := by rfl)
    (hn : next.all fun j => !j.isControl && j.subject.isNone := by rfl) : Helps i s e := by
  obtain rfl := goto_eq_some h
  refine ⟨hasi, fun j hj => ?_, rfl, fun c hc => absurd hc (not_touched_of_eq hcal hlog c)⟩
  have hj := List.all_eq_true.1 hn j hj
  simp only [Bool.and_eq_true, Bool.not_eq_true', isNone_iff_eq_none] at hj
  exact ⟨hj.1, fun c hc => absurd (hj.2.symm.trans hc) nofun⟩

/-- A jump that changes only the subject and keeps to it. -/
theorem Helps.of_subject (h : goto s' next = some e)
    (hasi : Aside s s') (hi : i.subject = some c) (htou : ∀ c', Touched s s' c' → c = c')
    (hn : next.all fun j => !j.isControl && j.subject.all (· = c)) : Helps i s e := by
  obtain rfl := goto_eq_some h
  refine ⟨hasi, fun j hj => ?_, rfl, fun c' hc => by rw [hi, htou c' hc]⟩
  have hj := List.all_eq_true.1 hn j hj
  simp only [Bool.and_eq_true, Bool.not_eq_true'] at hj
  refine ⟨hj.1, fun c' hc => .inl ?_⟩
  have hall := hj.2
  rw [hc] at hall
  rw [hi, show c' = c from of_decide_eq_true hall]

theorem Helps.of_call {f : Call → Call} (h : goto (s.updateCall c f) next = some e)
    (hf : ∀ call, (f call).written = call.written := by exact fun _ => rfl)
    (hi : i.subject = some c := by rfl)
    (hn : next.all (fun j => !j.isControl && j.subject.all (· = c)) := by simp [isControl, subject]) :
    Helps i s e :=
  .of_subject h (aside_updateCall s c hf) hi (fun _ => eq_of_touched_updateCall) hn

/-- A jump to an instruction for the call that is current. -/
theorem Helps.of_current (h : goto s [j] = some e) (hj : j.isControl = false)
    (hcur : s.current = j.subject) : Helps i s e := by
  obtain rfl := goto_eq_some h
  refine ⟨.refl s, fun k hk => ?_, rfl, fun c hc => absurd hc (not_touched_of_eq rfl rfl c)⟩
  obtain rfl := mem_singleton.1 hk
  exact ⟨hj, fun c hc => .inr (hcur.trans hc)⟩

theorem sem_helps (h : sem env i a s = some e) (hi : i.isControl = false) : Helps i s e := by
  cases i with
  | closeWithCode =>
    simp only [sem, closeWithCode] at h
    split at h
    · exact .of_goto h ⟨rfl, rfl, fun _ => rfl, .inl rfl, .inl rfl⟩
    · cases h
    · exact .of_goto h
  | closed => exact .of_goto h ⟨rfl, rfl, fun _ => rfl, .inl rfl, .inl rfl⟩
  | closeTarget => exact .of_goto h ⟨rfl, rfl, fun _ => rfl, .inr rfl, .inl rfl⟩
  | failCurrent =>
    simp only [sem, failCurrent] at h
    split at h
    case h_1 hcur => exact .of_current h rfl hcur
    case h_2 => exact .of_goto h
  | beginFinish c =>
    simp only [sem, beginFinish] at h
    split at h
    · exact .of_call h
    · exact .of_goto h
  | checkPartial c =>
    simp only [sem, checkPartial] at h
    split at h
    · exact .of_subject h (.refl s) rfl (fun c' hc => absurd hc (not_touched_of_eq rfl rfl c'))
        (by simp [isControl, subject])
    · exact .of_call h
  | commitUsage c =>
    exact .of_call h
  | consume | refund =>
    simp only [sem] at h
    exact .of_subject h ⟨rfl, rfl, fun _ => rfl, .inl rfl, .inl rfl⟩ rfl
      (fun c' hc => some.inj (eq_of_touched_bill hc)) rfl
  | commitRate =>
    obtain rfl := goto_eq_some h
    refine ⟨⟨rfl, rfl, fun _ => rfl, .inl rfl, .inl rfl⟩, fun j hj => ?_, rfl, fun c hc => ?_⟩
    · exact absurd hj not_mem_nil
    · cases eq_of_touched_bill hc
  | completeFinish =>
    refine .of_goto h ?_ ?_ ?_ rfl
    · split
      · exact ⟨rfl, rfl, fun _ => rfl, .inl rfl, .inr rfl⟩
      · exact .refl s
    · split <;> rfl
    · split <;> rfl
  | read =>
    cases a with
    | fail | message => exact .of_goto h
    | _ => cases h
  | observe m =>
    simp only [sem, observe] at h
    split at h
    case h_1 hcur => exact .of_current h rfl hcur
    case h_2 => exact .of_goto h
  | apply c m =>
    simp only [sem, applyMessage] at h
    refine .of_call h (fun _ => rfl) rfl ?_
    cases ((s.calls c).data.observe env m).2 <;> simp [isControl, subject]
  | writeClient =>
    cases a with
    | ok | fail => exact .of_goto h
    | _ => cases h
  | _ => cases hi

/-! ## The main loop -/

namespace Session

/-- No request of a current call was written. -/
def Unwritten (s : Session) : Prop := ∀ c, s.current = some c → (s.calls c).written = none

/-- The call was prepared, and its request not yet written. -/
def Ready (s : Session) (c : ℕ) : Prop := c < s.prepared ∧ (s.calls c).written = none

/-- The connection in use and the one the current call was written to are the last one. -/
structure Numbered (s : Session) : Prop where
  fresh : ∀ c, s.prepared ≤ c → (s.calls c).written = none
  target : ∀ k, s.target = some k → k + 1 = s.connections
  current : ∀ c k, s.current = some c → (s.calls c).written = some k → k + 1 = s.connections

end Session

/-- What is known of the session where the main loop is. -/
def At (s : Session) : Instr → Prop
  | .checkTarget _ | .retryConnect _ _ | .prepareExisting => s.Unwritten
  | .connect _ _ => s.Unwritten ∧ s.target = none
  | .dial _ _ c => s.Unwritten ∧ s.target = none ∧ s.Ready c
  | .setTarget _ _ c k => s.Unwritten ∧ s.target = none ∧ s.Ready c ∧ k + 1 = s.connections
  | .reserveFirst _ _ c | .writeFirst _ _ c | .reserveExisting c | .writeExisting c =>
    s.Unwritten ∧ s.Ready c
  | _ => True

theorem at_of_not_control (hi : i.isControl = false) : At s i := by
  cases i <;> trivial

section

variable (h : Aside s s')
include h

theorem Aside.unwritten (hs : s.Unwritten) : s'.Unwritten := by
  intro c hc
  rw [h.written]
  obtain hcur | hcur := h.current
  · exact hs c (hcur.symm.trans hc)
  · cases hcur.symm.trans hc

theorem Aside.ready (hc : s.Ready c) : s'.Ready c := by rwa [Session.Ready, h.prepared, h.written]

theorem Aside.target_none (hs : s.target = none) : s'.target = none := by
  obtain ht | ht := h.target
  · exact ht.trans hs
  · exact ht

/-- The other threads leave what is known of the session as it is. -/
theorem Aside.at (hat : At s i) : At s' i := by
  cases i with
  | checkTarget | retryConnect | prepareExisting => exact h.unwritten hat
  | connect => exact ⟨h.unwritten hat.1, h.target_none hat.2⟩
  | dial => exact ⟨h.unwritten hat.1, h.target_none hat.2.1, h.ready hat.2.2⟩
  | setTarget =>
    exact ⟨h.unwritten hat.1, h.target_none hat.2.1, h.ready hat.2.2.1,
      hat.2.2.2.trans h.connections.symm⟩
  | reserveFirst | writeFirst | reserveExisting | writeExisting =>
    exact ⟨h.unwritten hat.1, h.ready hat.2⟩
  | _ => trivial

theorem Aside.numbered (hs : s.Numbered) : s'.Numbered where
  fresh c hc := by
    rw [h.prepared] at hc
    rw [h.written]
    exact hs.fresh c hc
  target k hk := by
    rw [h.connections]
    obtain ht | ht := h.target
    · exact hs.target k (ht.symm.trans hk)
    · cases ht.symm.trans hk
  current c k hc hk := by
    rw [h.connections]
    rw [h.written] at hk
    obtain ht | ht := h.current
    · exact hs.current c k (ht.symm.trans hc) hk
    · cases ht.symm.trans hc

end

/-- What a step of the main loop can do. -/
structure Turn (i : Instr) (a : Answer) (s : Session) (e : Effect Session Tag Instr) : Prop where
  numbered : e.shared.Numbered
  next : ∀ j ∈ e.next, At e.shared j
  one : e.next.countP Instr.isControl ≤ 1
  spawned : ∀ t ∈ e.spawned, ∃ k, t = ⟨.reader k, [.read]⟩ ∧ k + 1 = e.shared.connections
  written : ∀ c k, (s.calls c).written = some k → (e.shared.calls c).written = some k
  connections : e.shared.connections = s.connections ∨ (i.isDial ∧ a.isOk)

/-- A jump that leaves the session as it is. -/
theorem Turn.of_goto (h : goto s next = some e) (hs : s.Numbered)
    (hn : ∀ j ∈ next, At s j := by simp [At])
    (hone : next.countP isControl ≤ 1 := by simp [isControl]) : Turn i a s e := by
  obtain rfl := goto_eq_some h
  exact ⟨hs, hn, hone, forall_mem_nil _, fun _ _ hc => hc, .inl rfl⟩

theorem prepare_calls (data : CallData) (hc : c ≠ s.prepared) :
    (s.prepare data).calls c = s.calls c :=
  update_of_ne hc _ _

theorem prepare_written (s : Session) (data : CallData) :
    ((s.prepare data).calls s.prepared).written = none := by
  simp [prepare]

theorem prepare_turn {data : CallData} (h : goto (s.prepare data) [j] = some e) (hs : s.Numbered)
    (hat : At (s.prepare data) j) : Turn i a s e := by
  obtain rfl := goto_eq_some h
  refine ⟨⟨fun c hc => ?_, hs.target, fun c k hc hk => ?_⟩, ?_, ?_, forall_mem_nil _,
    fun c k hk => ?_, .inl rfl⟩
  · have hlt : s.prepared < c := hc
    rw [prepare_calls data hlt.ne']
    exact hs.fresh c hlt.le
  · by_cases hne : c = s.prepared
    · subst hne
      cases (prepare_written s data).symm.trans hk
    · rw [prepare_calls data hne] at hk
      exact hs.current c k hc hk
  · simpa using hat
  · exact countP_le_length
  · have hne : c ≠ s.prepared := by
      rintro rfl
      cases (hs.fresh _ le_rfl).symm.trans hk
    rwa [prepare_calls data hne]

theorem prepare_unwritten {data : CallData} (hs : s.Unwritten) : (s.prepare data).Unwritten := by
  intro c hc
  by_cases hne : c = s.prepared
  · rw [hne, prepare_written]
  · rw [prepare_calls data hne]
    exact hs c hc

theorem prepare_ready (s : Session) (data : CallData) : (s.prepare data).Ready s.prepared :=
  ⟨Nat.lt_succ_self _, prepare_written s data⟩

theorem tryReserveCurrent_turn {refused : List Instr}
    (h : tryReserveCurrent c s [j] refused = some e) (hs : s.Numbered) (hc : s.Ready c)
    (hj : ∀ s' : Session, s'.Unwritten → s'.Ready c → At s' j)
    (href : ∀ j ∈ refused, At s j) (hone : refused.countP isControl ≤ 1) : Turn i a s e := by
  rw [tryReserveCurrent] at h
  split at h
  · obtain rfl := goto_eq_some h
    have hn (c' : ℕ) (hcur : some c = some c') : (s.calls c').written = none := some.inj hcur ▸ hc.2
    refine ⟨⟨hs.fresh, hs.target, fun c' k hcur hk => ?_⟩, ?_, ?_, forall_mem_nil _,
      fun _ _ hk => hk, .inl rfl⟩
    · cases (hn c' hcur).symm.trans hk
    · simpa using hj { s with current := some c } hn hc
    · exact countP_le_length
  · exact .of_goto h hs href hone

theorem writeCall_turn (h : writeCall c s' (fun _ => [j]) = some e) (hasi : Aside s s')
    (hs : s.Numbered) (hc : s.Ready c) (hj : ∀ s, At s j) : Turn i a s e := by
  rw [writeCall] at h
  split at h
  case h_2 => cases h
  case h_1 k htgt =>
    obtain rfl := goto_eq_some h
    have hs' := hasi.numbered hs
    obtain ⟨hlt, hn⟩ := hasi.ready hc
    have hoth {c' : ℕ} (hne : c' ≠ c) :
        (s'.updateCall c fun call => { call with written := some k }).calls c' = s'.calls c' :=
      update_of_ne hne _ _
    refine ⟨⟨fun c' hc' => ?_, hs'.target, fun c' k' hc' hk => ?_⟩, ?_, ?_, forall_mem_nil _,
      fun c' k' hk => ?_, .inl hasi.connections⟩
    · have hne : c' ≠ c := (lt_of_lt_of_le hlt hc').ne'
      rw [hoth hne]
      exact hs'.fresh c' hc'
    · by_cases hne : c' = c
      · subst hne
        obtain rfl : k = k' := by simpa [updateCall] using hk
        exact hs'.target k htgt
      · rw [hoth hne] at hk
        exact hs'.current c' k' hc' hk
    · simpa using hj _
    · exact countP_le_length
    · rw [← hasi.written] at hk
      have hne : c' ≠ c := by
        rintro rfl
        cases hn.symm.trans hk
      rwa [hoth hne]

theorem writeEvent_turn {sent failed : List Instr} (h : writeEvent s sent failed a = some e)
    (hs : s.Numbered) (hsent : ∀ j ∈ sent, At s j) (hfl : ∀ j ∈ failed, At s j)
    (hone : sent.countP isControl ≤ 1) (hone' : failed.countP isControl ≤ 1) :
    Turn i a s e := by
  cases a with
  | ok =>
    simp only [writeEvent] at h
    split at h
    · cases h
    · exact .of_goto h hs hsent hone
  | fail => exact .of_goto h hs hfl hone'
  | _ => cases h

/-- **What a step of the main loop can do**, with what is known of the session there. -/
theorem sem_turn (h : sem env i a s = some e) (hi : i.isControl) (hs : s.Numbered) (hat : At s i) :
    Turn i a s e := by
  cases i with
  | readClient | register | handleCancel | cancelTarget | control =>
    simp only [sem, readClient, register] at h
    repeat' split at h
    all_goals first | exact .of_goto h hs | cases h
  | handleCreate =>
    simp only [sem, handleCreate] at h
    split at h
    · exact .of_goto h hs
    · split at h
      · exact .of_goto h hs
      case isFalse =>
        have hcur : s.current = none := by tauto
        refine .of_goto h hs ?_ (by simp [isControl])
        simp [At, Session.Unwritten, hcur]
    · cases h
  | checkTarget =>
    simp only [sem, checkTarget] at h
    split at h
    · exact .of_goto h hs
    · split at h
      case isTrue htgt => exact .of_goto h hs (by simpa [At] using ⟨hat, htgt⟩) countP_le_length
      case isFalse => exact .of_goto h hs (by simpa [At] using hat) countP_le_length
    · cases h
  | connect =>
    simp only [sem, connect] at h
    split at h
    · exact .of_goto h hs
    · exact .of_goto h hs
    · exact .of_goto h hs (by simpa [At] using hat) countP_le_length
    · exact prepare_turn h hs ⟨prepare_unwritten hat.1, hat.2, prepare_ready s _⟩
    · cases h
  | dial =>
    simp only [sem, dial] at h
    split at h
    · exact .of_goto h hs
    · exact .of_goto h hs (by simpa [At] using ⟨hat.1, hat.2.1⟩) (by simp [isControl])
    · obtain rfl := goto_eq_some h
      obtain ⟨hunw, htgt, hrdy⟩ := hat
      refine ⟨⟨hs.fresh, fun k hk => ?_, fun c' k hc hk => ?_⟩, ?_, countP_le_length,
        forall_mem_nil _, fun _ _ hk => hk, .inr ⟨rfl, rfl⟩⟩
      · cases htgt.symm.trans hk
      · cases (hunw c' hc).symm.trans hk
      · simpa [At] using ⟨hunw, htgt, hrdy⟩
    · cases h
  | setTarget =>
    obtain rfl := goto_eq_some h
    obtain ⟨hunw, -, hrdy, hk⟩ := hat
    refine ⟨⟨hs.fresh, fun k' hk' => ?_, hs.current⟩, ?_, countP_le_length, forall_mem_nil _,
      fun _ _ hk => hk, .inl rfl⟩
    · exact some.inj hk' ▸ hk
    · simpa [At] using ⟨hunw, hrdy⟩
  | reserveFirst | reserveExisting =>
    exact tryReserveCurrent_turn h hs hat.2 (fun _ h h' => ⟨h, h'⟩) (by simp [At])
      (by simp [isControl])
  | writeFirst =>
    simp only [sem, writeFirst] at h
    split at h
    · exact writeCall_turn h ⟨rfl, rfl, fun _ => rfl, .inl rfl, .inl rfl⟩ hs hat.2 fun _ => trivial
    · exact .of_goto h hs
    · exact .of_goto h hs (by simpa [At] using hat.1) (by simp [isControl])
    · cases h
  | writeExisting =>
    simp only [sem, writeExisting] at h
    split at h
    · exact writeCall_turn h (.refl s) hs hat.2 fun _ => trivial
    · exact .of_goto h hs
    · cases h
  | retryConnect =>
    obtain rfl := goto_eq_some h
    refine ⟨⟨hs.fresh, by rintro _ ⟨⟩, hs.current⟩, fun j hj => ?_, countP_le_length,
      forall_mem_nil _, fun _ _ hk => hk, .inl rfl⟩
    rw [mem_singleton.1 hj]
    exact ⟨hat, rfl⟩
  | startReader =>
    simp only [sem, startReader] at h
    split at h
    case h_1 k htgt =>
      cases h
      refine ⟨hs, by simp [At], countP_le_length, fun t ht => ?_, fun _ _ hk => hk, .inl rfl⟩
      exact ⟨k, mem_singleton.1 ht, hs.target k htgt⟩
    · exact .of_goto h hs
  | prepareExisting =>
    simp only [sem, prepareExisting] at h
    split at h
    · exact .of_goto h hs
    · exact prepare_turn h hs ⟨prepare_unwritten hat, prepare_ready s _⟩
    · cases h
  | writeCancel | writeControl =>
    exact writeEvent_turn h hs (by simp [At]) (by simp [At]) (by simp [isControl])
      (by simp [isControl])
  | _ => cases hi

/-! ## Runs -/

/-- An instruction of the reader of a connection: this is the last connection, and the call it
concerns was written to it. -/
structure Own (s : Session) (k : ℕ) (i : Instr) : Prop where
  last : k + 1 = s.connections
  helper : i.isControl = false
  subject : ∀ c, i.subject = some c → (s.calls c).written = some k

/-- The indicator of the instructions of the main loop. -/
def mainToken (i : Instr) : ℕ := if i.isControl then 1 else 0

/-- The main loop is in one place, where the session is as it has to be, and the readers keep to
their own connection. -/
structure Kept (s : Session) (m : Multiset (Tag × Instr)) : Prop where
  numbered : s.Numbered
  one : weight mainToken m ≤ 1
  place : ∀ x ∈ m, At s x.2
  own : ∀ k i, (Tag.reader k, i) ∈ m → Own s k i

variable {tag : Tag} {R : Multiset (Tag × Instr)}

theorem sum_mainToken (next : List Instr) : (next.map mainToken).sum = next.countP isControl := by
  induction next with
  | nil => rfl
  | cons _ _ ih => rw [map_cons, sum_cons, ih, countP_cons, mainToken, add_comm]

theorem Kept.control (h : Kept s ((tag, i) ::ₘ R)) (hi : i.isControl) (hturn : Turn i a s e)
    (hsep : i.isDial ∧ a.isOk → ∀ k j, (Tag.reader k, j) ∉ R) :
    Kept e.shared (e.pending tag + R) := by
  have hr x (hx : x ∈ R) : x.2.isControl = false := by
    have hone := h.one
    have hle := le_weight_of_mem (w := mainToken) hx
    rw [weight_cons, mainToken, if_pos hi] at hone
    by_contra hx
    rw [mainToken, if_pos (by simpa using hx)] at hle
    omega
  have htag (k : ℕ) : tag ≠ .reader k := by
    rintro rfl
    have hown := (h.own k i (Multiset.mem_cons_self _ _)).helper
    simp [hi] at hown
  constructor
  case numbered => exact hturn.numbered
  case one =>
    rw [weight_add, Effect.weight_pending, Effect.weight, sum_mainToken]
    have hz : weight mainToken R = 0 := by
      by_contra hpos
      obtain ⟨x, hx, hx'⟩ := exists_of_weight_pos (Nat.pos_of_ne_zero hpos)
      simp [mainToken, hr x hx] at hx'
    have hspn : (e.spawned.map fun t => (t.code.map mainToken).sum).sum = 0 := by
      refine sum_eq_zero fun n hn => ?_
      obtain ⟨t, ht, rfl⟩ := List.mem_map.1 hn
      obtain ⟨k, rfl, -⟩ := hturn.spawned t ht
      rfl
    rw [hz, hspn]
    exact hturn.one
  case place =>
    intro x hx
    obtain hx | hx := Multiset.mem_add.1 hx
    · obtain ⟨-, hx⟩ | hx := Effect.mem_pending_iff.1 hx
      · exact hturn.next x.2 hx
      · obtain ⟨t, ht, -, hx⟩ := mem_pendingOf.1 hx
        obtain ⟨k, rfl, -⟩ := hturn.spawned t ht
        rw [mem_singleton.1 hx]
        trivial
    · exact at_of_not_control (hr x hx)
  case own =>
    intro k j hj
    obtain hj | hj := Multiset.mem_add.1 hj
    · obtain ⟨htag', -⟩ | hj := Effect.mem_pending_iff.1 hj
      · exact absurd htag'.symm (htag k)
      · obtain ⟨t, ht, htag', hj⟩ := mem_pendingOf.1 hj
        obtain ⟨k', rfl, hk⟩ := hturn.spawned t ht
        cases htag'
        cases mem_singleton.1 hj
        exact ⟨hk, rfl, by rintro _ ⟨⟩⟩
    · have hown := h.own k j (Multiset.mem_cons_of_mem hj)
      refine ⟨?_, hown.helper, fun c hc => hturn.written c k (hown.subject c hc)⟩
      obtain hs | hdial := hturn.connections
      · exact hown.last.trans hs.symm
      · exact absurd hj (hsep hdial k j)

theorem Kept.helper (h : Kept s ((tag, i) ::ₘ R)) (hhel : Helps i s e)
    (hsep : tag.isReader → s.currentWritten) : Kept e.shared (e.pending tag + R) := by
  have hasi := hhel.aside
  have hn {x : Tag × Instr} (hx : x ∈ e.pending tag) : x.1 = tag ∧ x.2 ∈ e.next := by
    obtain hx | hx := Effect.mem_pending_iff.1 hx
    · exact hx
    · simp [hhel.spawned] at hx
  have hkp {k : ℕ} {j : Instr} (hown : Own s k j) : Own e.shared k j :=
    ⟨hown.last.trans hasi.connections.symm, hown.helper, fun c hc =>
      (hasi.written c).trans (hown.subject c hc)⟩
  constructor
  case numbered => exact hasi.numbered h.numbered
  case one =>
    have hz : e.next.countP isControl = 0 :=
      countP_eq_zero.2 fun j hj => by simp [(hhel.next j hj).1]
    have hone := h.one
    rw [weight_cons] at hone
    rw [weight_add, Effect.weight_pending, Effect.weight, sum_mainToken, hhel.spawned, hz]
    simp only [map_nil, sum_nil]
    omega
  case place =>
    intro x hx
    obtain hx | hx := Multiset.mem_add.1 hx
    · exact at_of_not_control (hhel.next x.2 (hn hx).2).1
    · exact hasi.at (h.place x (Multiset.mem_cons_of_mem hx))
  case own =>
    intro k j hj
    obtain hj | hj := Multiset.mem_add.1 hj
    · obtain ⟨rfl, hj'⟩ := hn hj
      have hown := h.own k i (Multiset.mem_cons_self _ _)
      obtain ⟨hhelp, hsub⟩ := hhel.next j hj'
      refine hkp ⟨hown.last, hhelp, fun c hc => ?_⟩
      obtain hi | hcur := hsub c hc
      · exact hown.subject c hi
      · -- the current call was written, and to the last connection, which is the reader's
        have hwri := hsep rfl
        rw [currentWritten, hcur] at hwri
        obtain ⟨k', hk'⟩ := isSome_iff_exists.1 hwri
        have hl := h.numbered.current c k' hcur hk'
        have hk := hown.last
        rw [hk', show k' = k by omega]
    · exact hkp (h.own k j (Multiset.mem_cons_of_mem hj))

/-- The invariant of a session in which connections are separate. -/
def KeptPool (p : Pool Session Tag Instr) : Prop := Kept p.shared p.pending

theorem keptPool_opened : KeptPool opened where
  numbered := ⟨fun _ _ => rfl, nofun, nofun⟩
  one := le_rfl
  place x hx := by
    obtain rfl : x = (.main, .readClient) := by simpa [opened, Pool.pending, pendingOf] using hx
    trivial
  own k i hi := by simp [opened, Pool.pending, pendingOf] at hi

theorem not_mem_of_readersEnded (h : readersEnded p) (k : ℕ)
    (i : Instr) : (Tag.reader k, i) ∉ p.pending := by
  intro hi
  obtain ⟨t, ht, htag, hi⟩ := mem_pendingOf.1 hi
  have hc := of_decide_eq_true (List.all_eq_true.1 h t ht) (by rw [htag]; rfl)
  simp [hc] at hi

theorem KeptPool.exec {l : Label Session Tag Instr Answer}
    (h : KeptPool p) (hadm : Admissible l p) (hsep : Separate l p) :
    KeptPool (exec (sem env) l p) := by
  cases l with
  | step j answer =>
    obtain heq | ⟨_, i, _, e, hth, hsem, hsh, R, hpen, hpen'⟩ :=
      exec_cases (sem env) j answer p
    · rwa [heq]
    · simp only [Separate, hth, decide_eq_true_eq] at hsep
      rw [KeptPool, hpen] at h
      rw [KeptPool, hsh, hpen']
      by_cases hi : i.isControl
      · have hpla := h.place _ (Multiset.mem_cons_self _ _)
        refine h.control hi (sem_turn hsem hi h.numbered hpla) fun hdial k j hj => ?_
        refine not_mem_of_readersEnded (hsep.1 hdial) k j ?_
        rw [hpen]
        exact Multiset.mem_cons_of_mem hj
      · exact h.helper (sem_helps hsem (by simpa using hi)) hsep.2
  | start t =>
    obtain rfl : t = ⟨.closer, [.closeWithCode]⟩ := hadm
    rw [KeptPool, pending_start]
    refine ⟨h.numbered, ?_, fun x hx => ?_, fun k i hi => ?_⟩
    · rw [weight_cons]
      simpa [mainToken, isControl] using h.one
    · obtain rfl | hx := Multiset.mem_cons.1 hx
      · trivial
      · exact h.place x hx
    · obtain hi | hi := Multiset.mem_cons.1 hi
      · cases hi
      · exact h.own k i hi
  | crash | external => exact hadm.elim

theorem KeptPool.isolated {l : Label Session Tag Instr Answer}
    (h : KeptPool p) : Isolated env l p := by
  rintro j answer k code rfl hth c hc
  obtain heq | ⟨_, i, _, e, hth', hsem, hsh, R, hpen, -⟩ := exec_cases (sem env) j answer p
  · simp [heq] at hc
  · cases hth.symm.trans hth'
    have hown := h.own k i (hpen ▸ Multiset.mem_cons_self _ _)
    rw [hsh] at hc
    exact hown.subject c ((sem_helps hsem hown.helper).touched c hc)

/-- **Readers keep to their own connection while connections are separate**: in every run in which a
connection is dialed only after the readers of all others have ended, and readers run only while no
call is current whose request was not yet written, what a reader delivers changes and finalizes only
calls whose request was written to its connection. -/
theorem readers_isolated_of_separate (env : Env) (steps : List (Label Session Tag Instr Answer))
    (hadm : Along (exec (sem env)) Admissible opened steps)
    (hsep : Along (exec (sem env)) (fun l p => Separate l p) opened steps) :
    Along (exec (sem env)) (Isolated env) opened steps :=
  .of_invariant (fun _ _ _ h => h.isolated) (fun _ _ hok h => h.exec hok.1 hok.2) keptPool_opened
    (hadm.and hsep)

/-- A create event over the connection that is there, whose write fails: the connection is closed.
-/
def createFailed : List (Label Session Tag Instr Answer) :=
  [.step 0 (.client (.create "m")), .step 0 .ok, .step 0 .ok, .step 0 (.prepared {}), .step 0 .ok,
    .step 0 .fail] ++ List.replicate 7 (.step 0 .ok)

/-- The first connection fails and its reader ends; the next request cannot be written to it, and
one more goes to a new connection, which completes it. -/
def reconnected : List (Label Session Tag Instr Answer) :=
  createFirst ++ complete 1 ++ [.step 1 .fail, .step 1 .ok] ++ createFailed ++ createFirst ++
    complete 2

theorem readers_isolated_of_separate_reconnected :
    Along (exec (sem plainEnv)) (Isolated plainEnv) opened reconnected ∧
      (run (exec (sem plainEnv)) opened reconnected).shared.finals 2 = 1 :=
  ⟨readers_isolated_of_separate plainEnv reconnected
    (by simp [reconnected, createFirst, createFailed, complete, Along, Admissible])
    (by decide +kernel), by decide +kernel⟩

/-- The write over the first connection fails and the next request goes to a new one, before the
reader of the first connection sees that it was closed. -/
def lateReader : List (Label Session Tag Instr Answer) :=
  createFirst ++ complete 1 ++ createFailed ++ createFirst ++ [.step 1 .fail, .step 1 .ok]

/-- **A late read error finishes the call of another connection**: the reader of the connection 0 is
about to finish the call 2, whose request was written to the connection 1, and does so. -/
theorem late_reader_finishes_other_call : let p := run (exec (sem plainEnv)) opened lateReader
    Along (exec (sem plainEnv)) Admissible opened (lateReader ++ [.step 1 .ok]) ∧
      p.threads[1]? = some ⟨.reader 0, [.beginFinish 2 false]⟩ ∧
      (p.shared.calls 2).written = some 1 ∧ ¬ Isolated plainEnv (.step 1 .ok) p := by
  intro p
  have hthread : p.threads[1]? = some ⟨.reader 0, [.beginFinish 2 false]⟩ := by decide +kernel
  have hwritten : (p.shared.calls 2).written = some 1 := by decide +kernel
  have hchanged : (exec (sem plainEnv) (.step 1 .ok) p).shared.calls 2 ≠ p.shared.calls 2 := by
    decide +kernel
  refine ⟨?_, hthread, hwritten, fun h => ?_⟩
  · simp [lateReader, createFirst, createFailed, complete, Along, Admissible]
  · have hown := h 1 .ok 0 _ rfl hthread 2 (.inl hchanged)
    exact absurd (hwritten.symm.trans hown) (by decide)

end LmmApi.Responses
