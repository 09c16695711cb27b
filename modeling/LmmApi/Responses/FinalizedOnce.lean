import LmmApi.Responses.Duties

/-!
# Every call is finalized once

A prepared call is refunded or charged exactly once. The duty to do so is always in one place: with
a pending instruction that owes it, or with the call itself while it is current and nobody has begun
to finish it; when the call is finalized the duty is gone. `Law` says this with the weights of the
pending instructions, and that a current call stays in somebody's care until the end of the session.
-/

namespace LmmApi.Responses

open Threads Attribution List Option Instr

variable {env : Env} {i : Instr} {s : Session} {e : Effect Session Tag Instr}

/-! ## The law of duties -/

/-- The duties of a session with its pending instructions. -/
structure Law (s : Session) (m : Multiset (Tag × Instr)) : Prop where
  /-- A prepared call is finalized, or somebody owes that, or it is current and open. -/
  once : ∀ c, s.finals c + weight (token Instr.owes c) m + (if s.Open c then 1 else 0) =
    if c < s.prepared then 1 else 0
  /-- A current call that is being finished is finished by one thread. -/
  finishing : ∀ c, weight (token Instr.finishes c) m =
    if s.current = some c ∧ (s.calls c).finishing = true then 1 else 0
  /-- A call that is to become current was not finished before. -/
  opening : ∀ c, (s.calls c).finishing = true → weight (token Instr.opens c) m = 0
  current_lt : ∀ c, s.current = some c → c < s.prepared
  /-- Somebody takes care of an open call. -/
  tended : ∀ c, s.Open c → ∃ x ∈ m, x.2.tends c

variable {tag : Tag} {R : Multiset (Tag × Instr)} {j : Instr} {c : ℕ}

theorem weight_token_of_none {f : Instr → Option ℕ} (hi : f i = none) (c : ℕ) :
    weight (token f c) ((tag, i) ::ₘ R) = weight (token f c) R := by
  rw [weight_cons, token, hi, if_neg (by rintro ⟨⟩), zero_add]

theorem weight_token_of_some {f : Instr → Option ℕ} (hi : f i = some c) (c' : ℕ) :
    weight (token f c') ((tag, i) ::ₘ R) = (if c = c' then 1 else 0) + weight (token f c') R := by
  rw [weight_cons, token, hi]
  simp only [some.injEq]

/-- A call that is to become current is owed. -/
theorem weight_opens_le (c : ℕ) (m : Multiset (Tag × Instr)) :
    weight (token opens c) m ≤ weight (token owes c) m := by
  refine weight_le_weight (fun i => ?_) m
  cases i <;> first | exact le_rfl | exact Nat.zero_le _

theorem Instr.isIdle_iff : i.isIdle ↔ i.owes = none ∧ i.finishes = none ∧ i.opens = none :=
  decide_eq_true_iff

/-- Threads that start have no duties. -/
theorem weight_token_pending {f : Instr → Option ℕ} (hf : ∀ i : Instr, i.isIdle → f i = none)
    (hspn : e.spawned.all fun t => t.code.all isIdle) (tag : Tag) (c : ℕ) :
    weight (token f c) (e.pending tag + R) =
      (e.next.map (token f c)).sum + weight (token f c) R := by
  rw [weight_add, Effect.weight_pending, Effect.weight]
  have hz : (e.spawned.map fun t => (t.code.map (token f c)).sum).sum = 0 := by
    refine sum_eq_zero fun n hn => ?_
    obtain ⟨t, ht, rfl⟩ := List.mem_map.1 hn
    have hc := List.all_eq_true.1 (List.all_eq_true.1 hspn t ht)
    rw [sum_token, filterMap_eq_nil_iff.2 fun i hi => hf i (hc i hi), count_nil]
  rw [hz, add_zero]

section

variable (h : Law s ((tag, i) ::ₘ R))
include h

theorem Law.passed (hs : s.SameDuties e.shared)
    (hn : HandsOn i s e.next) (hspn : e.spawned.all fun t => t.code.all isIdle) :
    Law e.shared (e.pending tag + R) := by
  constructor
  case once =>
    intro c
    have hon := h.once c
    rw [weight_cons] at hon
    rw [weight_token_pending (fun i hi => (isIdle_iff.1 hi).1) hspn, hn.owes,
      hs.finals, hs.prepared]
    simp only [hs.open_iff]
    exact hon
  case finishing =>
    intro c
    have hfin := h.finishing c
    rw [weight_cons] at hfin
    rw [weight_token_pending (fun i hi => (isIdle_iff.1 hi).2.1) hspn, hn.finishes,
      hs.current, hs.finishing]
    exact hfin
  case opening =>
    intro c hfin
    rw [hs.finishing] at hfin
    have hz := h.opening c hfin
    have hle := hn.opens c
    rw [weight_cons] at hz
    rw [weight_token_pending (fun i hi => (isIdle_iff.1 hi).2.2) hspn]
    dsimp only at hz
    omega
  case current_lt =>
    rw [hs.current, hs.prepared]
    exact h.current_lt
  case tended =>
    intro c hop
    rw [hs.open_iff] at hop
    obtain ⟨x, hx, ht⟩ := h.tended c hop
    obtain rfl | hx := Multiset.mem_cons.1 hx
    · obtain ⟨j, hj, ht⟩ := hn.care c hop ht
      exact ⟨(tag, j), Multiset.mem_add.2 (.inl (Effect.mem_pending hj tag)), ht⟩
    · exact ⟨x, Multiset.mem_add.2 (.inr hx), ht⟩

theorem Law.prepared (hi : i.isIdle) (data : CallData)
    (hcon : j.isControl) (howes : j.owes = some s.prepared) (hfini : j.finishes = none)
    (hope : j.opens = some s.prepared) : Law (s.prepare data) ((tag, j) ::ₘ R) := by
  obtain ⟨hi, hi', hi''⟩ := isIdle_iff.1 hi
  have hcur : s.current ≠ some s.prepared := fun hc => lt_irrefl _ (h.current_lt _ hc)
  have hcal {c : ℕ} (hc : c ≠ s.prepared) : (s.prepare data).calls c = s.calls c :=
    Function.update_of_ne hc _ _
  have hop (c : ℕ) : (s.prepare data).Open c ↔ s.Open c := by
    by_cases hc : c = s.prepared
    · subst hc
      exact ⟨fun h => absurd h.1 hcur, fun h => absurd h.1 hcur⟩
    · rw [Session.Open, Session.Open, hcal hc]
      rfl
  constructor
  case once =>
    intro c
    have hon := h.once c
    rw [weight_token_of_none hi] at hon
    rw [weight_token_of_some howes]
    simp only [hop]
    change s.finals c + _ + _ = if c < s.prepared + 1 then 1 else 0
    grind
  case finishing =>
    intro c
    have hfin := h.finishing c
    rw [weight_token_of_none hi'] at hfin
    rw [weight_token_of_none hfini, hfin]
    by_cases hc : c = s.prepared
    · subst hc
      rw [if_neg fun h => hcur h.1, if_neg fun h => hcur h.1]
    · rw [hcal hc]
      rfl
  case opening =>
    intro c hfin
    have hc : c ≠ s.prepared := by
      rintro rfl
      simp [Session.prepare] at hfin
    rw [hcal hc] at hfin
    have hz := h.opening c hfin
    rw [weight_token_of_none hi''] at hz
    rw [weight_token_of_some hope, if_neg (Ne.symm hc), hz]
  case current_lt => exact fun c hc => Nat.lt_succ_of_lt (h.current_lt c hc)
  case tended =>
    intro c _
    exact ⟨(tag, j), Multiset.mem_cons_self _ _, tends_of_failsAny (by simp [failsAny, hcon]) c⟩

theorem Law.reserved (howes : i.owes = some c)
    (hope : i.opens = some c) (hfini : i.finishes = none) (hcur : s.current = none)
    (hcon : j.isControl) (hj : j.isIdle) : Law { s with current := some c } ((tag, j) ::ₘ R) := by
  obtain ⟨hj, hj', hj''⟩ := isIdle_iff.1 hj
  have hn (c : ℕ) : ¬ s.Open c := fun h => nomatch hcur.symm.trans h.1
  have hfin : (s.calls c).finishing = false := by
    by_contra hfin
    have hz := h.opening c (by simpa using hfin)
    rw [weight_token_of_some hope, if_pos rfl] at hz
    omega
  have hop (c' : ℕ) : ({ s with current := some c } : Session).Open c' ↔ c = c' := by
    constructor
    · exact fun h => some.inj h.1
    · rintro rfl
      exact ⟨rfl, hfin⟩
  constructor
  case once =>
    intro c'
    have hon := h.once c'
    rw [weight_token_of_some howes, if_neg (hn c')] at hon
    rw [weight_token_of_none hj]
    simp only [hop]
    change s.finals c' + _ + _ = if c' < s.prepared then 1 else 0
    omega
  case finishing =>
    intro c'
    have hz := h.finishing c'
    rw [weight_token_of_none hfini, if_neg (by simp [hcur])] at hz
    rw [weight_token_of_none hj', hz, if_neg]
    rintro ⟨hc, hfin'⟩
    cases hc
    simp [hfin] at hfin'
  case opening =>
    intro c' hfin'
    have hz := h.opening c' hfin'
    rw [weight_token_of_some hope] at hz
    rw [weight_token_of_none hj'']
    omega
  case current_lt =>
    rintro c' ⟨⟩
    have hon := h.once c
    rw [weight_token_of_some howes, if_pos rfl] at hon
    change c < s.prepared
    grind
  case tended =>
    intro c' _
    exact ⟨(tag, j), Multiset.mem_cons_self _ _, tends_of_failsAny (by simp [failsAny, hcon]) c'⟩

omit h in
theorem Law.begun {success : Bool} (h : Law s ((tag, .beginFinish c success) ::ₘ R))
    (hop : s.Open c) : Law (s.updateCall c fun call => { call with finishing := true })
      ((tag, .checkPartial c success) ::ₘ R) := by
  set s' := s.updateCall c fun call => { call with finishing := true } with hs'
  have hself : (s'.calls c).finishing = true := by simp [hs', Session.updateCall]
  have hcur {c' : ℕ} (hc : s'.current = some c') : c = c' := mem_unique hop.1 hc
  have hcl (c' : ℕ) : ¬ s'.Open c' := by
    rintro ⟨hc, hfin⟩
    obtain rfl := hcur hc
    simp [hself] at hfin
  have howed c' : s'.finals c' + ((if c = c' then 1 else 0) + weight (token Instr.owes c') R) =
      if c' < s'.prepared then 1 else 0 := by
    have hon := h.once c'
    rw [weight_token_of_none rfl] at hon
    change s.finals c' + _ = if c' < s.prepared then 1 else 0
    have hiff : s.Open c' ↔ c = c' := ⟨fun h => hcur h.1, fun hc => hc ▸ hop⟩
    simp only [hiff] at hon
    omega
  constructor
  case once =>
    intro c'
    rw [weight_token_of_some rfl, if_neg (hcl c'), add_zero]
    exact howed c'
  case finishing =>
    intro c'
    have hz := h.finishing c'
    have hnot : ¬(s.current = some c' ∧ (s.calls c').finishing = true) := by
      rintro ⟨hc, hfin⟩
      obtain rfl := hcur hc
      simp [hop.2] at hfin
    rw [weight_token_of_none rfl, if_neg hnot] at hz
    have hiff : (s'.current = some c' ∧ (s'.calls c').finishing = true) ↔ c = c' :=
      ⟨fun h => hcur h.1, fun hc => hc ▸ ⟨hop.1, hself⟩⟩
    rw [weight_token_of_some rfl, hz]
    simp only [hiff, add_zero]
  case opening =>
    intro c' hfin
    rw [weight_token_of_none rfl]
    by_cases hc : c' = c
    · subst hc
      -- the call is owed by the thread that finishes it, so nobody is to open it
      have howed := howed c'
      have hle := weight_opens_le c' R
      rw [if_pos rfl] at howed
      split at howed <;> omega
    · have hz := h.opening c' (by simpa [hs', Session.updateCall, hc] using hfin)
      rwa [weight_token_of_none rfl] at hz
  case current_lt => exact h.current_lt
  case tended => exact fun c' hc => absurd hc (hcl c')

theorem Law.finalized {b : Billing} (howes : i.owes = some c)
    (hfini : i.finishes = none) (hope : i.opens = none) (hten : ∀ c, i.tends c = false)
    (hb : b.finalizes = some c) : Law (s.bill b) R := by
  constructor
  case once =>
    intro c'
    have hon := h.once c'
    rw [weight_token_of_some howes] at hon
    rw [Session.finals_bill, hb]
    change _ + (if s.Open c' then 1 else 0) = if c' < s.prepared then 1 else 0
    simp only [some.injEq]
    omega
  case finishing =>
    intro c'
    rw [← weight_token_of_none hfini]
    exact h.finishing c'
  case opening =>
    intro c' hfin
    rw [← weight_token_of_none hope]
    exact h.opening c' hfin
  case current_lt => exact h.current_lt
  case tended =>
    intro c' hop
    obtain ⟨x, hx, ht⟩ := h.tended c' hop
    obtain rfl | hx := Multiset.mem_cons.1 hx
    · simp [hten] at ht
    · exact ⟨x, hx, ht⟩

omit h in
theorem Law.completed (h : Law s ((tag, .completeFinish c) ::ₘ R)) :
    Law (if s.current = some c then { s with current := none } else s) R := by
  have hwei := h.finishing c
  rw [weight_token_of_some rfl, if_pos rfl] at hwei
  obtain ⟨hcur, hfin⟩ : s.current = some c ∧ (s.calls c).finishing = true := by
    by_contra hnot
    rw [if_neg hnot] at hwei
    omega
  have hcl (c' : ℕ) : ¬ s.Open c' := by
    rintro ⟨hc, hfin'⟩
    obtain rfl := mem_unique hcur hc
    simp [hfin] at hfin'
  rw [if_pos hcur]
  constructor
  case once =>
    intro c'
    have hon := h.once c'
    rw [weight_token_of_none rfl, if_neg (hcl c')] at hon
    rw [if_neg fun h => nomatch h.1]
    exact hon
  case finishing =>
    intro c'
    have hwei' := h.finishing c'
    rw [weight_token_of_some rfl] at hwei'
    rw [if_neg fun h => nomatch h.1]
    by_cases hc : c = c'
    · subst hc
      rw [if_pos ⟨hcur, hfin⟩] at hwei
      omega
    · have hoth : ¬(s.current = some c' ∧ (s.calls c').finishing = true) := fun h =>
        hc (mem_unique hcur h.1)
      rw [if_neg hc, if_neg hoth] at hwei'
      omega
  case opening =>
    intro c' hfin'
    rw [← weight_token_of_none (i := Instr.completeFinish c) rfl]
    exact h.opening c' hfin'
  case current_lt => exact fun c' hc => nomatch hc
  case tended => exact fun c' hc => nomatch hc.1

/-- **Every instruction keeps the law of duties.** -/
theorem Law.step (hmove : Move i s e) : Law e.shared (e.pending tag + R) := by
  cases hmove with
  | passed hs hn hspn => exact h.passed hs hn hspn
  | prepared data _ hi he hcon howes hfin hope =>
    subst he
    rw [Effect.pending_singleton]
    exact h.prepared hi data hcon howes hfin hope
  | reserved _ _ howes hope hfin hcur he hcon hj =>
    subst he
    rw [Effect.pending_singleton]
    exact h.reserved howes hope hfin hcur hcon hj
  | begun _ _ hi hop he =>
    subst hi he
    rw [Effect.pending_singleton]
    exact h.begun hop
  | finalized _ _ howes hfin hope hten hb he =>
    subst he
    rw [Effect.pending_nil]
    exact h.finalized howes hfin hope hten hb
  | completed _ hi he =>
    subst hi he
    rw [Effect.pending_nil]
    exact h.completed

end

/-! ## Runs -/

/-- The duties are as the law says. -/
def Lawful (p : Pool Session Tag Instr) : Prop := Law p.shared p.pending

theorem pending_opened : opened.pending = (Tag.main, Instr.readClient) ::ₘ 0 := rfl

theorem lawful_opened : Lawful opened where
  once c := by
    rw [pending_opened, weight_token_of_none rfl]
    rfl
  finishing c := by
    rw [pending_opened, weight_token_of_none rfl]
    rfl
  opening c hfin := nomatch hfin
  current_lt c hc := nomatch hc
  tended c hc := nomatch hc.1

theorem Lawful.start {p : Pool Session Tag Instr} (h : Lawful p) (hi : i.isIdle) :
    Law p.shared ((tag, i) ::ₘ p.pending) := by
  obtain ⟨howes, hfin, hope⟩ := isIdle_iff.1 hi
  constructor
  case once => simpa only [weight_token_of_none howes] using h.once
  case finishing => simpa only [weight_token_of_none hfin] using h.finishing
  case opening => simpa only [weight_token_of_none hope] using h.opening
  case current_lt => exact h.current_lt
  case tended =>
    intro c hop
    obtain ⟨x, hx, ht⟩ := h.tended c hop
    exact ⟨x, Multiset.mem_cons_of_mem hx, ht⟩

theorem Lawful.exec {p : Pool Session Tag Instr} {l : Label Session Tag Instr Answer}
    (h : Lawful p) (hadm : Admissible l p) : Lawful (exec (sem env) l p) := by
  cases l with
  | step j answer =>
    obtain heq | ⟨_, i, _, e, -, hsem, hsh, R, hpen, hpen'⟩ := exec_cases (sem env) j answer p
    · rwa [heq]
    · rw [Lawful, hpen] at h
      rw [Lawful, hsh, hpen']
      exact h.step (sem_move hsem)
  | start t =>
    obtain rfl : t = ⟨.closer, [.closeWithCode]⟩ := hadm
    rw [Lawful, pending_start]
    exact h.start rfl
  | crash | external => exact hadm.elim

/-- A call becomes current only while none is. -/
theorem current_of_move (h : Move i s e) (hne : e.shared.current ≠ s.current) :
    s.current = none ∨ e.shared.current = none := by
  cases h with
  | passed hs => exact absurd hs.current hne
  | prepared _ _ _ he | begun _ _ _ _ he | finalized _ _ _ _ _ _ _ he =>
    exact absurd (by rw [he]; rfl) hne
  | reserved _ _ _ _ _ hcur => exact .inl hcur
  | completed c _ he =>
    subst he
    by_cases hc : s.current = some c
    · exact .inr (by simp [hc])
    · exact absurd (by simp [hc]) hne

/-- **Calls are billed once**: in every run of a session, whatever the client, the upstreams and
those who close the session do and however the threads are interleaved, a call becomes current only
while none is; a call is finalized, by a refund or by posting its consumption, at most once and only
if it was prepared; and when all threads have ended every prepared call was finalized exactly
once. -/
theorem calls_finalized_once (env : Env) (steps : List (Label Session Tag Instr Answer))
    (hadm : Along (exec (sem env)) Admissible opened steps) :
    let p := run (exec (sem env)) opened steps
    (∀ l, Admissible l p → (exec (sem env) l p).shared.current ≠ p.shared.current →
      p.shared.current = none ∨ (exec (sem env) l p).shared.current = none) ∧
    (∀ c, p.shared.finals c ≤ if c < p.shared.prepared then 1 else 0) ∧
    ((∀ t ∈ p.threads, t.code = []) → ∀ c < p.shared.prepared, p.shared.finals c = 1) := by
  intro p
  have hlaw : Lawful p := run_rule (fun p l hadm h => h.exec hadm) lawful_opened hadm
  refine ⟨fun l hl hne => ?_, fun c => ?_, fun hended c hc => ?_⟩
  · cases l with
    | step j answer =>
      obtain heq | ⟨_, i, _, e, -, hsem, hshared, -⟩ := exec_cases (sem env) j answer p
      · exact absurd (by rw [heq]) hne
      · rw [hshared] at hne ⊢
        exact current_of_move (sem_move hsem) hne
    | start => exact absurd rfl hne
    | crash | external => exact hl.elim
  · have honce := hlaw.once c
    omega
  · have hnone : p.pending = 0 := pendingOf_eq_zero hended
    have hclosed : ¬ p.shared.Open c := by
      intro hopen
      obtain ⟨x, hx, -⟩ := hlaw.tended c hopen
      simp [hnone] at hx
    have honce := hlaw.once c
    rwa [hnone, weight_zero, if_neg hclosed, if_pos hc] at honce

/-- Two calls over one connection: the upstream completes the first one, and fails during the second
one. -/
def twoCalls : List (Label Session Tag Instr Answer) :=
  createFirst ++ complete 1 ++
  [.step 0 (.client (.create "m")), .step 0 .ok, .step 0 .ok, .step 0 (.prepared {}), .step 0 .ok,
    .step 0 .ok,
    .step 1 .fail, .step 1 .ok, .step 1 .ok, .step 1 .ok, .step 1 .ok, .step 1 .ok, .step 1 .ok,
    .step 0 .fail, .step 0 .ok, .step 0 .ok]

theorem calls_finalized_once_twoCalls : let s := (run (exec (sem plainEnv)) opened twoCalls).shared
    s.prepared = 2 ∧ ∀ c < 2, s.finals c = 1 := by
  intro s
  have hprepared : s.prepared = 2 := by decide +kernel
  refine ⟨hprepared, fun c hc => ?_⟩
  exact (calls_finalized_once plainEnv twoCalls
    (by simp [twoCalls, createFirst, complete, Along, Admissible])).2.2 (by decide +kernel) c
    (hprepared.symm ▸ hc)

end LmmApi.Responses
