import LmmApi.Lib.Attribution
import LmmApi.WsManager.Manager

/-!
# Draining the sessions

`Consistent` is the invariant of the manager: every session that was accepted is registered, was
unregistered, or was closed by `CloseChannels` before draining began; the calls of its close function,
made or due, are as many as its `sync.Once` says. It is kept by every critical section, so it holds
whatever the goroutines do, and what is claimed of a drain follows from it.
-/

namespace LmmApi.WsManager

open Attribution List Option Table

variable {s s' : State} {id : ℕ} {code : CloseCode} {reason : String} {extra : List Close}

/-- What happened before draining began. -/
def early (log : List Event) : List Event := log.takeWhile (· ≠ .draining)

variable {log : List Event}

theorem early_of_not_mem (h : .draining ∉ log) : early log = log := by
  induction log with
  | nil => rfl
  | cons e _ ih =>
    rw [mem_cons, not_or] at h
    have hne : e ≠ .draining := Ne.symm h.1
    rw [early, takeWhile_cons, if_pos (decide_eq_true hne)]
    exact congrArg _ (ih h.2)

theorem mem_early_append {e : Event} (h : e ∈ early log) (more : List Event) :
    e ∈ early (log ++ more) := by
  rw [early, takeWhile_append]
  split
  · exact mem_append_left _ (List.takeWhile_prefix _ |>.mem h)
  · exact h

/-- How often the close function of a session has been called. -/
def calls (log : List Event) (id : ℕ) : ℕ :=
  log.countP fun e => match e with
    | .closed close => close.id = id
    | _ => false

/-- How often the close function of a session is due. -/
def dueCalls (due : List Close) (id : ℕ) : ℕ := due.countP fun close => close.id = id

theorem calls_append (log log' : List Event) (id : ℕ) :
    calls (log ++ log') id = calls log id + calls log' id := countP_append

theorem calls_closed (close : Close) (id : ℕ) :
    calls [.closed close] id = if close.id = id then 1 else 0 := by
  simp [calls, countP_cons]

theorem dueCalls_singleton (close : Close) (id : ℕ) :
    dueCalls [close] id = if close.id = id then 1 else 0 := by
  simp [dueCalls, countP_cons]

namespace State

/-- How often the close function of a session has been claimed. -/
def claims (s : State) (id : ℕ) : ℕ :=
  match s.sessions.get? id with
  | some session => if session.closeOnce then 1 else 0
  | none => 0

theorem claims_le_one (s : State) (id : ℕ) : s.claims id ≤ 1 := by
  unfold claims
  split
  · split <;> omega
  · omega

/-- The session is in the registry. -/
def Registered (s : State) (channelID : ℤ) (id : ℕ) : Prop :=
  ∃ ids, s.registry.lookup channelID = some ids ∧ id ∈ ids

/-- `CloseChannels` claimed the session, which takes it out of the registry, before draining began. -/
def ClosedEarly (s : State) (id : ℕ) : Prop :=
  ∃ reason, .claimed ⟨id, .policyViolation, reason⟩ ∈ early s.log

/-- The invariant, for a state and calls that a critical section is about to make. -/
structure Consistent (s : State) (extra : List Close) : Prop where
  session : ∀ channelID id, s.Registered channelID id →
    ∃ session, s.sessions.get? id = some session ∧ session.channelID = channelID
  accounted : ∀ id, .accepted id ∈ s.log →
    (∃ channelID, s.Registered channelID id) ∨ .unregistered id ∈ s.log ∨ s.ClosedEarly id
  called : ∀ id, calls s.log id + dueCalls (s.due ++ extra) id = s.claims id
  rejected : ∀ id, .rejected id ∈ s.log → s.claims id = 1
  accepted : ∀ id, .accepted id ∈ s.log → .accepted id ∈ early s.log
  not_draining : s.draining = false → .draining ∉ s.log
  complete : s.drainComplete = true → s.draining = true ∧ s.registry.entries = []
  done : s.drainDone = s.drainComplete
  once : s.log.count .drainDone = if s.drainComplete then 1 else 0

/-- Before draining begins, no session in the registry has been closed. -/
def Unclaimed (s : State) : Prop :=
  s.draining = false → ∀ channelID id, s.Registered channelID id → s.claims id = 0

variable {session : Session} {channelID c : ℤ} {j : ℕ}

theorem claims_eq_of_get? (h : s.sessions.get? id = some session) :
    s.claims id = if session.closeOnce then 1 else 0 := by
  rw [claims, h]

theorem claims_congr (h : s'.sessions.get? id = s.sessions.get? id) : s'.claims id = s.claims id := by
  rw [claims, claims, h]

theorem registered_iff : s.Registered channelID id ↔ id ∈ (s.registry.lookup channelID).getD [] := by
  unfold Registered
  cases s.registry.lookup channelID <;> simp

/-! ## Changes that keep the invariant -/

/-- Events that say nothing about who is accepted, which calls were made and whether draining began. -/
def Neutral : Event → Prop
  | .unregistered _ | .claimed _ | .drained | .expired => True
  | _ => False

section

variable (h : s.Consistent extra)
include h

/-- An event other than an acceptance is logged. -/
theorem Consistent.append {e : Event} {extra' : List Close} (hses : s'.sessions = s.sessions)
    (hreg : s'.registry = s.registry) (hlog : s'.log = s.log ++ [e]) (hacc : ∀ id, e ≠ .accepted id)
    (hcal : ∀ id, calls [e] id + dueCalls (s'.due ++ extra') id = dueCalls (s.due ++ extra) id)
    (hrej : ∀ id, e = .rejected id → s.claims id = 1)
    (hnot : s'.draining = false → s.draining = false ∧ e ≠ .draining)
    (hcp : s'.drainComplete = true → s'.draining = true ∧ s.registry.entries = [])
    (hdone : s'.drainDone = s'.drainComplete)
    (hon : (if s.drainComplete then 1 else 0) + [e].count .drainDone =
      if s'.drainComplete then 1 else 0) : s'.Consistent extra' := by
  have hcla (j : ℕ) : s'.claims j = s.claims j := claims_congr (by rw [hses])
  have hold {j : ℕ} (hj : .accepted j ∈ s'.log) : .accepted j ∈ s.log := by
    rw [hlog] at hj
    exact (mem_append.1 hj).resolve_right fun hm => hacc j (mem_singleton.1 hm).symm
  refine ⟨fun c j hj => ?_, fun j hj => ?_, fun j => ?_, fun j hj => ?_, fun j hj => ?_,
    fun hdr hm => ?_, hreg ▸ hcp, hdone, ?_⟩
  · rw [Registered, hreg] at hj
    rw [hses]
    exact h.session c j hj
  · simp only [Registered, ClosedEarly, hreg, hlog]
    obtain hr | hunr | ⟨reason, hcl⟩ := h.accounted j (hold hj)
    · exact .inl hr
    · exact .inr (.inl (mem_append_left _ hunr))
    · exact .inr (.inr ⟨reason, mem_early_append hcl _⟩)
  · rw [hcla, hlog, calls_append, add_assoc, hcal]
    exact h.called j
  · rw [hlog] at hj
    obtain hj | hj := mem_append.1 hj
    · exact (hcla j).trans (h.rejected j hj)
    · exact (hcla j).trans (hrej j (mem_singleton.1 hj).symm)
  · rw [hlog]
    exact mem_early_append (h.accepted j (hold hj)) _
  · obtain ⟨hdr, hne⟩ := hnot hdr
    rw [hlog] at hm
    exact hne ((mem_append.1 hm).resolve_left (h.not_draining hdr) |> mem_singleton.1).symm
  · rw [hlog, count_append, h.once, hon]

theorem Consistent.emit {e : Event} (he : Neutral e) :
    Consistent { s with log := s.log ++ [e] } extra := by
  cases e
  case unregistered | claimed | drained | expired =>
    exact h.append rfl rfl rfl nofun (fun _ => zero_add _) nofun (fun hdr => ⟨hdr, nofun⟩)
      h.complete h.done rfl
  all_goals exact he.elim

/-- The table of sessions changes, but not the channels and the claims. -/
theorem Consistent.sessions (sessions : Table Session)
    (hses : ∀ id session, s.sessions.get? id = some session →
      ∃ session', sessions.get? id = some session' ∧ session'.channelID = session.channelID)
    (hcla : ∀ id, claims { s with sessions := sessions } id = s.claims id) :
    Consistent { s with sessions := sessions } extra := by
  refine ⟨fun channelID j hj => ?_, h.accounted, fun j => ?_, fun j hj => ?_, h.accepted, h.not_draining,
    h.complete, h.done, h.once⟩
  · obtain ⟨session, hg, rfl⟩ := h.session channelID j hj
    exact hses j session hg
  · rw [hcla]
    exact h.called j
  · rw [hcla]
    exact h.rejected j hj

/-- The calls that were claimed are due. -/
theorem Consistent.launch : Consistent { s with due := s.due ++ extra } [] := by
  refine ⟨h.session, h.accounted, fun j => ?_, h.rejected, h.accepted, h.not_draining, h.complete, h.done,
    h.once⟩
  rw [append_nil]
  exact h.called j

theorem Consistent.waiting (n : ℕ) : Consistent { s with waiting := n } extra :=
  ⟨h.session, h.accounted, h.called, h.rejected, h.accepted, h.not_draining, h.complete, h.done, h.once⟩

/-! ## Claims -/

omit h in
theorem claims_claim (close : Close)
    (hg : s.sessions.get? close.id = some session) (hon : session.closeOnce = false) (j : ℕ) :
    (s.claim close).claims j = s.claims j + dueCalls [close] j := by
  rw [dueCalls_singleton]
  by_cases hj : j = close.id
  · subst hj
    rw [claims_eq_of_get? hg, claims, claim, get?_modify_self, hg]
    simp [hon]
  · rw [claims, claims, claim, get?_modify_of_ne _ _ hj, if_neg (Ne.symm hj)]
    rfl

theorem Consistent.claim (close : Close)
    (hg : s.sessions.get? close.id = some session) (hon : session.closeOnce = false) :
    (s.claim close).Consistent (extra ++ [close]) := by
  have hcla := claims_claim close hg hon
  obtain ⟨hses, hacc, hcal, hrej, hear, hnot, hcp, hdone, hon'⟩ :=
    h.emit (e := .claimed close) trivial
  refine ⟨fun channelID j hj => ?_, hacc, fun j => ?_, fun j hj => ?_, hear, hnot, hcp, hdone, hon'⟩
  · obtain ⟨x, hx, hcha⟩ := hses channelID j hj
    exact exists_get?_modify _ hx (fun _ => hcha) (fun _ => hcha)
  · rw [hcla, ← append_assoc, dueCalls, countP_append, ← add_assoc]
    exact congrArg (· + _) (hcal j)
  · have hone : s.claims j = 1 := hrej j hj
    have hle := claims_le_one (s.claim close) j
    have hsum := hcla j
    omega

omit h in
/-- What `claimClose` can do. -/
theorem claimClose_cases (s : State) (id : ℕ) (code : CloseCode) (reason : String) :
    s.claimClose id code reason = (none, s) ∧
        (∀ session, s.sessions.get? id = some session → session.closeOnce = true) ∨
      ∃ session, s.sessions.get? id = some session ∧ session.closeOnce = false ∧
        s.claimClose id code reason = (some ⟨id, code, reason⟩, s.claim ⟨id, code, reason⟩) := by
  unfold claimClose
  cases hg : s.sessions.get? id with
  | none => exact .inl ⟨rfl, nofun⟩
  | some session =>
    dsimp only
    cases hon : session.closeOnce with
    | true =>
      refine .inl ⟨rfl, fun x hx => ?_⟩
      rw [← some.inj hx, hon]
    | false => exact .inr ⟨session, rfl, hon, rfl⟩

/-- The state after some close functions have been claimed. -/
structure Claimed (code : CloseCode) (reason : String) (ids : List ℕ) (s s' : State)
    (closes : List Close) : Prop where
  consistent : ∀ extra, s.Consistent extra → s'.Consistent (extra ++ closes)
  registry : s'.registry = s.registry
  draining : s'.draining = s.draining
  sessions : ∀ id ∉ ids, s'.sessions.get? id = s.sessions.get? id
  log : ∃ more, s'.log = s.log ++ more
  claimed : ∀ id ∈ ids, ∀ session, s.sessions.get? id = some session → session.closeOnce = false →
    .claimed ⟨id, code, reason⟩ ∈ s'.log

omit h in
theorem claimed_claimClose (s : State) (id : ℕ) (code : CloseCode) (reason : String) :
    Claimed code reason [id] s (s.claimClose id code reason).2
      (s.claimClose id code reason).1.toList := by
  obtain ⟨heq, hold⟩ | ⟨session, hg, hon, heq⟩ := claimClose_cases s id code reason
  · rw [heq]
    refine ⟨fun extra h => ?_, rfl, rfl, fun _ _ => rfl, ⟨[], ?_⟩, fun j hj session hg hon => ?_⟩
    · rwa [toList_none, append_nil]
    · rw [append_nil]
    · obtain rfl := mem_singleton.1 hj
      cases (hold session hg).symm.trans hon
  · rw [heq]
    refine ⟨fun extra h => h.claim _ hg hon, rfl, rfl, fun j hj => ?_, ⟨_, rfl⟩, fun j hj _ _ _ => ?_⟩
    · exact get?_modify_of_ne _ _ (by simpa using hj)
    · obtain rfl := mem_singleton.1 hj
      exact mem_append_right _ (mem_singleton.2 rfl)

omit h in
theorem claimed_claimAll (code : CloseCode) (reason : String) (ids : List ℕ) (s : State) :
    Claimed code reason ids s (claimAll code reason ids s).2 (claimAll code reason ids s).1 := by
  induction ids generalizing s with
  | nil => exact ⟨fun extra h => by rwa [claimAll, append_nil], rfl, rfl, fun _ _ => rfl,
      ⟨[], (append_nil _).symm⟩, nofun⟩
  | cons id ids ih =>
    have hfst := claimed_claimClose s id code reason
    have hr := ih (s.claimClose id code reason).2
    refine ⟨fun extra h => ?_, hr.registry.trans hfst.registry,
      hr.draining.trans hfst.draining, fun j hj => ?_, ?_, fun j hj session hg hon => ?_⟩
    · have hboth := hr.consistent _ (hfst.consistent extra h)
      rwa [append_assoc] at hboth
    · rw [mem_cons, not_or] at hj
      exact (hr.sessions j hj.2).trans (hfst.sessions j (by simpa using hj.1))
    · obtain ⟨more, hmore⟩ := hfst.log
      obtain ⟨more', hmore'⟩ := hr.log
      exact ⟨more ++ more', by rw [← append_assoc, ← hmore]; exact hmore'⟩
    · by_cases hid : j = id
      · obtain ⟨_, hmore⟩ := hr.log
        change _ ∈ (claimAll code reason ids (s.claimClose id code reason).2).2.log
        rw [hmore]
        exact mem_append_left _ (hfst.claimed j (mem_singleton.2 hid) session hg hon)
      · have hg' := (hfst.sessions j (by simpa using hid)).trans hg
        exact hr.claimed j ((mem_cons.1 hj).resolve_left hid) session hg' hon

/-! ## The critical sections -/

theorem Consistent.signal : s.signalDrainedLocked.Consistent extra := by
  unfold signalDrainedLocked
  split
  case isFalse => exact h
  case isTrue hsig =>
    obtain ⟨hdr, hcp, hemp⟩ := hsig
    exact h.append rfl rfl rfl nofun (fun _ => zero_add _) nofun
      (fun hnot => nomatch hdr.symm.trans hnot) (fun _ => ⟨hdr, hemp⟩) rfl (by rw [hcp]; rfl)

omit h in
theorem draining_signal (s : State) : s.signalDrainedLocked.draining = s.draining := by
  unfold signalDrainedLocked
  split <;> rfl

omit h in
theorem Unclaimed.signal (h : s.Unclaimed) : s.signalDrainedLocked.Unclaimed := by
  unfold signalDrainedLocked
  split <;> exact h

/-- A channel is left out of the registry once its sessions have been closed. -/
theorem Consistent.eraseChannel (hdr : s.draining = false)
    (hcl : ∀ id, s.Registered channelID id → s.ClosedEarly id) :
    Consistent { s with registry := s.registry.erase channelID } extra := by
  have hreg {c : ℤ} {j : ℕ} : Registered { s with registry := s.registry.erase channelID } c j ↔
      c ≠ channelID ∧ s.Registered c j := by
    rw [registered_iff, registered_iff]
    by_cases hc : c = channelID
    · subst hc
      simp [AList.lookup_erase]
    · simp [hc, AList.lookup_erase_ne hc]
  refine ⟨fun c j hj => h.session c j (hreg.1 hj).2, fun j hj => ?_, h.called, h.rejected, h.accepted,
    h.not_draining, fun hcp => ?_, h.done, h.once⟩
  · obtain ⟨c, hr⟩ | hr := h.accounted j hj
    · by_cases hc : c = channelID
      · exact .inr (.inr (hcl j (hc ▸ hr)))
      · exact .inl ⟨c, hreg.2 ⟨hc, hr⟩⟩
    · exact .inr hr
  · cases hdr.symm.trans (h.complete hcp).1

omit h in
/-- A session in the registry that has not been closed. -/
theorem Unclaimed.exists_session (hunc : s.Unclaimed) (h : s.Consistent extra)
    (hdr : s.draining = false) (hreg : s.Registered channelID id) :
    ∃ session, s.sessions.get? id = some session ∧ session.channelID = channelID ∧
      session.closeOnce = false := by
  obtain ⟨session, hg, hcha⟩ := h.session channelID id hreg
  have hz := hunc hdr channelID id hreg
  rw [claims_eq_of_get? hg] at hz
  exact ⟨session, hg, hcha, by simpa using hz⟩

/-- **The loop of `CloseChannels`.** -/
theorem Consistent.takeChannels (hunc : s.Unclaimed) (reason : String)
    (channelIDs : List ℤ) : (takeChannels .policyViolation reason channelIDs s).2.Consistent
        (extra ++ (takeChannels .policyViolation reason channelIDs s).1) ∧
      (takeChannels .policyViolation reason channelIDs s).2.Unclaimed := by
  induction channelIDs generalizing s extra with
  | nil =>
    rw [State.takeChannels, append_nil]
    exact ⟨h, hunc⟩
  | cons channelID channelIDs ih =>
    have hcla := claimed_claimAll .policyViolation reason ((s.registry.lookup channelID).getD []) s
    have hn := hcla.consistent extra h
    rw [State.takeChannels]
    generalize claimAll .policyViolation reason ((s.registry.lookup channelID).getD []) s = out at *
    obtain ⟨_, s₁⟩ := out
    dsimp only at *
    rw [← append_assoc]
    by_cases hdr : s₁.draining = true
    · rw [if_pos hdr]
      exact ih hn fun hnot => by cases hdr.symm.trans hnot
    · rw [if_neg hdr]
      rw [Bool.not_eq_true] at hdr
      have hdr' : s.draining = false := hcla.draining.symm.trans hdr
      refine ih (hn.eraseChannel hdr fun j hj => ?_) fun _ c j hj => ?_
      · -- the sessions of the channel have been closed now
        obtain ⟨ids, hids, hm⟩ := hj
        rw [hcla.registry] at hids
        obtain ⟨session, hg, -, hon⟩ := hunc.exists_session h hdr' ⟨ids, hids, hm⟩
        refine ⟨reason, ?_⟩
        rw [early_of_not_mem (hn.not_draining hdr)]
        exact hcla.claimed j (by rw [hids]; exact hm) session hg hon
      · -- the sessions of other channels are as before
        obtain ⟨ids, hids, hm⟩ := hj
        have hc : c ≠ channelID := by
          rintro rfl
          rw [AList.lookup_erase] at hids
          cases hids
        rw [AList.lookup_erase_ne hc, hcla.registry] at hids
        obtain ⟨_, hg, hcha, -⟩ := hunc.exists_session h hdr' ⟨ids, hids, hm⟩
        have hoth : j ∉ (s.registry.lookup channelID).getD [] := by
          intro hj
          obtain ⟨_, hg', hcha'⟩ := h.session channelID j (registered_iff.2 hj)
          obtain rfl := mem_unique hg hg'
          exact hc (hcha.symm.trans hcha')
        refine (claims_congr (s := s) ?_).trans (hunc hdr' c j ⟨ids, hids, hm⟩)
        exact hcla.sessions j hoth

omit h in
theorem Consistent.closeChannels (h : s.Consistent []) (hunc : s.Unclaimed)
    (channelIDs : List ℤ) (reason : String) : (s.closeChannels channelIDs reason).2.Consistent [] ∧
      (s.closeChannels channelIDs reason).2.Unclaimed := by
  obtain ⟨hcon, hunc'⟩ := h.takeChannels hunc (normalizeReason reason) (uniqueChannelIDs channelIDs)
  exact ⟨hcon.signal.launch, hunc'.signal⟩

omit h in
theorem claims_insert (session : Session) (hon : session.closeOnce = false) (id : ℕ) :
    claims { s with sessions := s.sessions.insert session } id = s.claims id := by
  rw [claims, claims, get?_insert]
  by_cases hid : id = s.sessions.next
  · rw [if_pos hid, hid, get?_next]
    simp [hon]
  · rw [if_neg hid]

/-- A new session that is not yet registered. -/
theorem Consistent.insert (hon : session.closeOnce = false) :
    Consistent { s with sessions := s.sessions.insert session } extra :=
  h.sessions _ (fun _ old hg => ⟨old, get?_insert_of_get? hg, rfl⟩) (claims_insert session hon)

theorem Consistent.rejected_event (hcla : s.claims id = 1) :
    Consistent { s with log := s.log ++ [.rejected id] } extra :=
  h.append rfl rfl rfl nofun (fun _ => zero_add _) (fun _ hj => Event.rejected.inj hj ▸ hcla)
    (fun hdr => ⟨hdr, nofun⟩) h.complete h.done rfl

end

section

variable (h : s.Consistent [])
include h

theorem Consistent.reject (channelID : ℤ) (kind : String) :
    (s.reject channelID kind).Consistent [] := by
  have hins : Consistent
      { s with sessions := s.sessions.insert ⟨channelID, kind, false, none⟩ } [] := h.insert rfl
  unfold State.reject
  dsimp only
  obtain ⟨-, hold⟩ | ⟨_, hg, hon, heq⟩ := claimClose_cases
    { s with sessions := s.sessions.insert ⟨channelID, kind, false, none⟩ } s.sessions.next
    .serviceRestart serviceRestartReason
  · cases hold _ (get?_insert_self _ _)
  · rw [heq]
    have hcla := hins.claim ⟨s.sessions.next, .serviceRestart, serviceRestartReason⟩ hg hon
    refine hcla.launch.rejected_event ?_
    have hsum := claims_claim ⟨s.sessions.next, .serviceRestart, serviceRestartReason⟩ hg hon
      s.sessions.next
    rw [claims_eq_of_get? hg, hon, dueCalls_singleton, if_pos rfl] at hsum
    exact hsum

omit h in
theorem registered_accept (channelID : ℤ) (kind : String) : (s.accept channelID kind).Registered c j ↔
    s.Registered c j ∨ c = channelID ∧ j = s.sessions.next := by
  rw [registered_iff, registered_iff, State.accept]
  by_cases hc : c = channelID
  · subst hc
    simp [AList.lookup_insert]
  · simp [hc, AList.lookup_insert_ne hc]

theorem Consistent.accept (hdr : s.draining = false) (channelID : ℤ)
    (kind : String) : (s.accept channelID kind).Consistent [] := by
  have hcla (j : ℕ) : (s.accept channelID kind).claims j = s.claims j :=
    claims_insert ⟨channelID, kind, false, some false⟩ rfl j
  have hnot := h.not_draining hdr
  refine ⟨fun c j hj => ?_, fun j hj => ?_, fun j => ?_, fun j hj => ?_, fun j hj => ?_, fun _ => ?_,
    fun hcp => ?_, h.done, ?_⟩
  · obtain hreg | ⟨rfl, rfl⟩ := (registered_accept channelID kind).1 hj
    · obtain ⟨session, hg, hcha⟩ := h.session c j hreg
      exact ⟨session, get?_insert_of_get? hg, hcha⟩
    · exact ⟨_, get?_insert_self _ _, rfl⟩
  · simp only [registered_accept]
    obtain hj | hj := mem_append.1 hj
    · obtain ⟨c, hreg⟩ | hunr | ⟨reason, hcl⟩ := h.accounted j hj
      · exact .inl ⟨c, .inl hreg⟩
      · exact .inr (.inl (mem_append_left _ hunr))
      · exact .inr (.inr ⟨reason, mem_early_append hcl _⟩)
    · exact .inl ⟨channelID, .inr ⟨rfl, Event.accepted.inj (mem_singleton.1 hj)⟩⟩
  · rw [hcla]
    refine Eq.trans ?_ (h.called j)
    rw [State.accept, calls_append]
    rfl
  · rw [hcla]
    exact h.rejected j (by simpa [State.accept] using hj)
  · rw [early_of_not_mem (by simpa [State.accept] using hnot)]
    exact hj
  · simpa [State.accept] using hnot
  · cases hdr.symm.trans (h.complete hcp).1
  · rw [State.accept, count_append, h.once]
    rfl

omit h in
theorem Unclaimed.accept (h : s.Unclaimed) (channelID : ℤ) (kind : String) :
    (s.accept channelID kind).Unclaimed := by
  intro hdr c j hj
  refine (claims_insert ⟨channelID, kind, false, some false⟩ rfl j).trans ?_
  obtain hreg | ⟨-, rfl⟩ := (registered_accept channelID kind).1 hj
  · exact h hdr c j hreg
  · rw [claims, get?_next]

theorem Consistent.register (hunc : s.Unclaimed) (channelID : ℤ)
    (kind : String) (closeFn : Bool) : (s.register channelID kind closeFn).Consistent [] ∧
      (s.register channelID kind closeFn).Unclaimed := by
  unfold State.register
  split
  · exact ⟨h, hunc⟩
  · split
    case isTrue hdr =>
      refine ⟨h.reject channelID kind, fun hnot => ?_⟩
      have hs := (claimed_claimClose
        { s with sessions := s.sessions.insert ⟨channelID, kind, false, none⟩ } s.sessions.next
        .serviceRestart serviceRestartReason).draining
      cases hdr.symm.trans (hs.symm.trans hnot)
    case isFalse hdr =>
      exact ⟨h.accept (by simpa using hdr) channelID kind, hunc.accept channelID kind⟩

omit h in
/-- What is registered without an entry. -/
theorem registered_deleteEntry (channelID : ℤ) (id : ℕ) :
    (s.deleteEntry channelID id).Registered c j ↔ j ∈
      if c = channelID then ((s.registry.lookup c).getD []).erase id
      else (s.registry.lookup c).getD [] := by
  rw [registered_iff, State.deleteEntry]
  by_cases hc : c = channelID
  · rw [if_pos hc, ← hc]
    split
    case isTrue hemp => rw [AList.lookup_erase, hemp, getD_none]
    case isFalse => rw [AList.lookup_insert, getD_some]
  · rw [if_neg hc]
    split
    · rw [AList.lookup_erase_ne hc]
    · rw [AList.lookup_insert_ne hc]

omit h in
theorem registered_of_deleteEntry (channelID : ℤ) (id : ℕ)
    (hj : (s.deleteEntry channelID id).Registered c j) : s.Registered c j := by
  rw [registered_deleteEntry] at hj
  rw [registered_iff]
  split at hj
  · exact mem_of_mem_erase hj
  · exact hj

omit h in
theorem Consistent.deleteEntry (h : s.Consistent extra) (hlog : .unregistered id ∈ s.log)
    (channelID : ℤ) : (s.deleteEntry channelID id).Consistent extra := by
  refine ⟨fun c j hj => h.session c j (registered_of_deleteEntry channelID id hj), fun j hj => ?_, h.called,
    h.rejected, h.accepted, h.not_draining, fun hcp => ?_, h.done, h.once⟩
  · obtain ⟨c, hreg⟩ | hr := h.accounted j hj
    · by_cases hid : j = id
      · exact .inr (.inl (hid ▸ hlog))
      · refine .inl ⟨c, (registered_deleteEntry channelID id).2 ?_⟩
        rw [registered_iff] at hreg
        split
        · exact (mem_erase_of_ne hid).2 hreg
        · exact hreg
    · exact .inr hr
  · obtain ⟨hdr, hemp⟩ := h.complete hcp
    refine ⟨hdr, ?_⟩
    have hn : s.registry.lookup channelID = none := by
      rw [AList.lookup, hemp]
      rfl
    unfold State.deleteEntry
    dsimp only
    rw [hn, getD_none, erase_nil, if_pos rfl]
    change List.kerase channelID s.registry.entries = []
    rw [hemp]
    rfl

theorem Consistent.unregister (hunc : s.Unclaimed) (id : ℕ) :
    (s.unregister id).Consistent [] ∧ (s.unregister id).Unclaimed := by
  unfold State.unregister
  split
  case h_2 => exact ⟨h, hunc⟩
  case h_1 channelID _ _ _ =>
  have hcla (j : ℕ) : claims { s with
      sessions := s.sessions.modify id fun session => { session with unregisterOnce := some true } } j =
      s.claims j := by
    rw [claims, claims, get?_modify]
    cases s.sessions.get? j with
    | none => rfl
    | some session =>
      rw [map_some]
      by_cases hj : j = id
      · rw [if_pos hj]
      · rw [if_neg hj]
  have hses := h.sessions (s.sessions.modify id fun session =>
    { session with unregisterOnce := some true }) (fun j session hg =>
      exists_get?_modify (P := fun x => x.channelID = session.channelID) _ hg (fun _ => rfl)
        (fun _ => rfl)) hcla
  have hemit := hses.emit (e := .unregistered id) trivial
  refine ⟨(hemit.deleteEntry (mem_append_right _ (mem_singleton.2 rfl)) channelID).signal,
    Unclaimed.signal fun hdr c j hj => ?_⟩
  have hreg : s.Registered c j := registered_of_deleteEntry (s := s) channelID id hj
  exact (hcla j).trans (hunc hdr c j hreg)

theorem Consistent.drainAll (hunc : s.Unclaimed) :
    s.drainAll.Consistent [] ∧ s.drainAll.Unclaimed := by
  unfold State.drainAll
  by_cases hdr : s.draining = true
  · rw [if_pos hdr]
    exact ⟨h.waiting _, hunc⟩
  · rw [if_neg hdr]
    have hbeg : Consistent { s with draining := true, log := s.log ++ [.draining] } [] :=
      h.append rfl rfl rfl nofun (fun _ => zero_add _) nofun nofun
        (fun hcp => absurd (h.complete hcp).1 hdr) h.done rfl
    have hcla := claimed_claimAll .serviceRestart serviceRestartReason
      (s.registry.entries.flatMap fun x => x.2) { s with draining := true, log := s.log ++ [.draining] }
    refine ⟨(hcla.consistent [] hbeg).launch.signal.waiting _, fun hnot => ?_⟩
    have hs := (draining_signal _).symm.trans hnot
    cases hcla.draining.symm.trans hs

theorem Consistent.close {close : Close} {i : ℕ} (hi : s.due[i]? = some close) :
    Consistent { s with due := s.due.eraseIdx i, log := s.log ++ [.closed close] } [] := by
  refine h.append rfl rfl rfl nofun (fun j => ?_) nofun (fun hdr => ⟨hdr, nofun⟩) h.complete h.done rfl
  obtain ⟨hlt, rfl⟩ := List.getElem?_eq_some_iff.1 hi
  have hperm := (getElem_cons_eraseIdx_perm hlt).countP_eq fun close => decide (close.id = j)
  rw [calls_closed, append_nil, append_nil, dueCalls, dueCalls, ← hperm, countP_cons, add_comm]
  simp only [decide_eq_true_eq]

end

end State

/-- Two sessions, one closed with its channel and one by the drain, and one that comes too late. -/
example : (run exec start [.register 1 "realtime" true, .register 2 "responses" true,
    .closeChannels [1] "", .drainAll, .register 1 "realtime" true, .unregister 2, .drained]).log =
      [.accepted 1, .accepted 2, .claimed ⟨1, .policyViolation, defaultCloseReason⟩, .draining,
        .claimed ⟨2, .serviceRestart, serviceRestartReason⟩,
        .claimed ⟨3, .serviceRestart, serviceRestartReason⟩, .rejected 3, .unregistered 2, .drainDone,
        .drained] := by
  decide +kernel

end LmmApi.WsManager
