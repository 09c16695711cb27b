import LmmApi.HeroSms.Email.Conservation

/-!
# Purchases that are aborted

A reconciliation fails an order whose purchase has not been started, and gives the price back. It
decides so by the order as it read it before it waited for the lease, while the process that buys
may still have held it. In the meantime that process marks the order and sends the purchase, and the
transaction that fails the order also accepts a marked one.

The lease is exclusive here: a process acquires it only while no other holds it. Then an order is
aborted only if its purchase is never sent, in every run in which no marked order is aborted.
-/

namespace LmmApi.HeroSms.Email

open Threads Attribution List Option

/-! ## The lease -/

/-- A process acquires the lease only while no process holds it. -/
def Exclusive : Label Db Unit Instr Answer → Pool Db Unit Instr → Prop
  | .step j .ok, p => ∀ i ∈ p.head? j, i.kind = .acquires →
    ∀ t ∈ p.threads, ∀ k ∈ t.code, k.kind ≠ .release
  | _, _ => True

instance : ∀ l p, Decidable (Exclusive l p) := by
  intro l p
  unfold Exclusive
  split <;> infer_instance

/-- What a process does without the lease. -/
def Loose (code : List Instr) : Prop := ∀ i ∈ code, i.kind = .free ∨ i.kind = .acquires

/-- Under the lease a process has one instruction to execute, and then releases it. -/
inductive Lined : List Instr → Prop
  | loose {code : List Instr} (h : Loose code) : Lined code
  | release {rest : List Instr} (h : Loose rest) : Lined (.release :: rest)
  | held {i : Instr} {rest : List Instr} (hi : i.kind = .held) (h : Loose rest) :
    Lined (i :: .release :: rest)

variable {env : Env} {p : Pool Db Unit Instr} {l : Label Db Unit Instr Answer} {id : ℕ}

theorem Loose.append {code code' : List Instr} (h : Loose code) (h' : Loose code') :
    Loose (code ++ code') := forall_mem_append.2 ⟨h, h'⟩

variable {i : Instr}

/-- The code of a process stays lined up. -/
theorem Lined.step {rest next : List Instr} (h : Lined (i :: rest)) (hlea : i.Leads next) :
    Lined (next ++ rest) := by
  cases h with
  | loose hloo =>
    have hr : Loose rest := fun k hk => hloo k (mem_cons_of_mem i hk)
    rcases hloo i mem_cons_self with hi | hi <;> rw [Instr.Leads, hi] at hlea
    · exact .loose (Loose.append hlea hr)
    · obtain rfl | ⟨j, _, rfl, hj, hoth⟩ := hlea
      · exact .loose hr
      · exact .held hj (Loose.append (fun k hk => .inl (hoth k hk)) hr)
  | release hr => exact .loose (Loose.append hlea hr)
  | held hi hr =>
    rw [Instr.Leads, hi] at hlea
    obtain rfl | ⟨j, rfl, hj⟩ := hlea
    · exact .release hr
    · exact .held hj hr

/-- One for a kind of instructions. -/
def ofKind (kind : Kind) (i : Instr) : ℕ := if i.kind = kind then 1 else 0

theorem ofKind_self {kind : Kind} (h : i.kind = kind) : ofKind kind i = 1 := if_pos h

theorem ofKind_ne {kind : Kind} (h : i.kind ≠ kind) : ofKind kind i = 0 := if_neg h

theorem Loose.sum_ofKind {code : List Instr} (h : Loose code) (kind : Kind) (hfr : kind ≠ .free)
    (hacq : kind ≠ .acquires) : (code.map (ofKind kind)).sum = 0 := by
  rw [sum_eq_zero_iff]
  intro n hn
  obtain ⟨i, hi, rfl⟩ := List.mem_map.1 hn
  refine if_neg ?_
  rcases h i hi with hi | hi <;> rw [hi]
  · exact hfr.symm
  · exact hacq.symm

theorem Lined.held_le {code : List Instr} (h : Lined code) :
    (code.map (ofKind .held)).sum ≤ (code.map (ofKind .release)).sum := by
  cases h with
  | loose h => rw [h.sum_ofKind .held nofun nofun]; exact Nat.zero_le _
  | release h =>
    rw [map_cons, sum_cons, h.sum_ofKind .held nofun nofun]
    exact Nat.zero_le _
  | held hi h =>
    have hrel : ofKind .release .release = 1 := rfl
    simp only [map_cons, sum_cons, h.sum_ofKind .held nofun nofun, ofKind_self hi, hrel]
    have hh : ofKind .held .release = 0 := rfl
    omega

/-- The processes take turns: the rest of each is lined up, and one holds the lease. -/
structure Leased (p : Pool Db Unit Instr) : Prop where
  lined : ∀ t ∈ p.threads, Lined t.code
  single : weight (ofKind .release) p.pending ≤ 1

/-- At most one instruction under the lease is pending. -/
theorem Leased.held_le (h : Leased p) : weight (ofKind .held) p.pending ≤ 1 :=
  (weight_pending_le fun t ht => (h.lined t ht).held_le).trans h.single

theorem sem_acquires {a : Answer} {db : Db} {e : Effect Db Unit Instr}
    (hi : i.kind = .acquires) (h : sem env i a db = some e) (hn : e.next ≠ []) : a = .ok := by
  cases sem_leaves h with
  | acquire ha | reconcileOrder ha => exact ha
  | stop => exact absurd rfl hn
  | _ => cases hi

/-- The leases that are held after an instruction. -/
theorem Instr.Leads.release_le {next : List Instr} (h : i.Leads next) :
    (next.map (ofKind .release)).sum ≤ ofKind .release i ∨
      i.kind = .acquires ∧ next ≠ [] ∧ (next.map (ofKind .release)).sum = 1 := by
  unfold Instr.Leads at h
  split at h
  · obtain rfl | ⟨j, rfl, hj⟩ := h
    · exact .inl (Nat.zero_le _)
    · simp [ofKind, hj]
  case h_2 hi =>
    obtain rfl | ⟨j, rest, rfl, hj, hr⟩ := h
    · exact .inl (Nat.zero_le _)
    · have hloo : Loose rest := fun k hk => .inl (hr k hk)
      refine .inr ⟨hi, cons_ne_nil _ _, ?_⟩
      rw [map_cons, map_cons, sum_cons, sum_cons,
        hloo.sum_ofKind .release nofun nofun, ofKind_ne (by rw [hj]; exact nofun)]
      rfl
  all_goals
    rw [Loose.sum_ofKind h .release nofun nofun]
    exact .inl (Nat.zero_le _)

/-- **A step keeps the processes taking turns**, if the lease is exclusive. -/
theorem Leased.exec (h : Leased p) (hsnd : Sound p) (hadm : Admissible l p) (hexcl : Exclusive l p) :
    Leased (exec (sem env) l p) where
  lined := by
    refine forall_code_exec (.loose fun _ hi => nomatch hi) (fun t ht => ?_)
      (fun tag i rest a e hpen hlin hsem => ?_) h.lined
    · subst ht
      obtain ⟨i, rfl, hi⟩ := hadm
      refine .loose fun k hk => ?_
      obtain rfl := mem_singleton.1 hk
      cases k <;> first | exact .inl rfl | cases hi
    · have hd := sem_does env hsem (hsnd.fits _ hpen) hsnd.rows.tidy
      refine ⟨hlin.step hd.next.leads, fun t ht => ?_⟩
      rw [hd.spawned] at ht
      cases ht
  single := by
    have hsin := h.single
    cases l with
    | step j a =>
      obtain hs | ⟨tag, i, _, e, hth, hsem, -, R, hbef, haft⟩ := exec_cases (sem env) j a p
      · rwa [hs]
      · have hft := hsnd.fits (tag, i) (hbef ▸ Multiset.mem_cons_self _ _)
        have hd := sem_does env hsem hft hsnd.rows.tidy
        rw [haft, weight_add, Effect.weight_pending, Effect.weight, hd.spawned]
        rw [hbef, weight_cons] at hsin
        obtain hle | ⟨hi, hn, hone⟩ := hd.next.leads.release_le
        · simp only [map_nil, sum_nil, add_zero]
          dsimp only at hsin
          omega
        · obtain rfl := sem_acquires hi hsem hn
          have hfr := hexcl i (Pool.head?_eq_some hth) hi
          have hno : ¬ 0 < weight (ofKind .release) R := by
            intro hpos
            obtain ⟨x, hx, hk⟩ := exists_of_weight_pos hpos
            obtain ⟨t, ht, -, hm⟩ := mem_pendingOf.1 (hbef ▸ Multiset.mem_cons_of_mem hx)
            exact hk.ne' (ofKind_ne (hfr t ht x.2 hm))
          simp only [map_nil, sum_nil, add_zero]
          omega
    | start =>
      obtain ⟨i, rfl, hi⟩ := hadm
      rw [pending_start, weight_cons]
      cases i <;> first | simpa [ofKind, Instr.kind] using hsin | cases hi
    | crash j =>
      obtain ⟨R, hR⟩ := Multiset.le_iff_exists_add.1 (pending_crash_le (sem env) j p)
      rw [hR, weight_add] at hsin
      omega
    | external => exact hsin

/-! ## Purchases that are sent -/

/-- The purchase of the order. -/
def Instr.IsPurchase (id : ℕ) : Instr → Prop
  | purchase id' _ _ => id' = id
  | _ => False

/-- The transaction that fails the order because its purchase did not start. -/
def Instr.IsAbort (id : ℕ) : Instr → Prop
  | fail id' e => id' = id ∧ e.code = "PROVIDER_INTENT_ABORTED"
  | _ => False

/-- The instruction aborts no purchase that has been marked as started. -/
def Instr.Unmarked (db : Db) : Instr → Prop
  | fail id e => e.code = "PROVIDER_INTENT_ABORTED" →
    ∀ o ∈ db.orders.get? id, o.status ≠ .purchaseUnknown
  | _ => True

instance (id : ℕ) (i : Instr) : Decidable (i.IsPurchase id) := by
  unfold Instr.IsPurchase
  split <;> infer_instance

instance (id : ℕ) (i : Instr) : Decidable (i.IsAbort id) := by
  induction i using Instr.casesOn <;> unfold Instr.IsAbort <;> infer_instance

instance (db : Db) (i : Instr) : Decidable (i.Unmarked db) := by
  induction i using Instr.casesOn <;> unfold Instr.Unmarked <;> infer_instance

/-- The step sends the purchase of the order to the provider. -/
def Sends (id : ℕ) : Label Db Unit Instr Answer → Pool Db Unit Instr → Prop
  | .step j _, p => ∃ i ∈ p.head? j, i.IsPurchase id
  | _, _ => False

/-- The step fails the order because its purchase did not start. -/
def Aborts (env : Env) (id : ℕ) : Label Db Unit Instr Answer → Pool Db Unit Instr → Prop
  | .step j a, p => (∃ i ∈ p.head? j, i.IsAbort id) ∧
    (∃ o ∈ p.shared.orders.get? id, o.status ≠ .failed) ∧
    ∃ o ∈ (exec (sem env) (.step j a) p).shared.orders.get? id, o.status = .failed
  | _, _ => False

/-- The steps that abort no purchase that has been marked as started. -/
def Unmarked : Label Db Unit Instr Answer → Pool Db Unit Instr → Prop
  | .step j _, p => ∀ i ∈ p.head? j, i.Unmarked p.shared
  | _, _ => True

instance (id : ℕ) (l : Label Db Unit Instr Answer) (p : Pool Db Unit Instr) : Decidable (Sends id l p) := by
  unfold Sends
  split <;> infer_instance

instance (env : Env) (id : ℕ) (l : Label Db Unit Instr Answer) (p : Pool Db Unit Instr) :
    Decidable (Aborts env id l p) := by
  unfold Aborts
  split <;> infer_instance

instance (l : Label Db Unit Instr Answer) (p : Pool Db Unit Instr) : Decidable (Unmarked l p) := by
  unfold Unmarked
  split <;> infer_instance

theorem Instr.IsPurchase.eq (h : i.IsPurchase id) : ∃ o provider, i = .purchase id o provider := by
  cases i with
  | purchase id' o provider => exact ⟨o, provider, by rw [show id' = id from h]⟩
  | _ => exact h.elim

theorem Instr.IsAbort.eq (h : i.IsAbort id) :
    ∃ e, i = .fail id e ∧ e.code = "PROVIDER_INTENT_ABORTED" := by
  cases i with
  | fail _ e => exact ⟨e, by rw [h.1], h.2⟩
  | _ => exact h.elim

/-- The order has been marked. -/
def Started (id : ℕ) (p : Pool Db Unit Instr) : Prop :=
  Sound p ∧ ∃ o, p.shared.orders.get? id = some o ∧ o.status ≠ .pendingProvider

/-- The order exists, and no process is about to buy it. -/
def Unbuyable (id : ℕ) (p : Pool Db Unit Instr) : Prop :=
  Sound p ∧ (∃ o, p.shared.orders.get? id = some o) ∧ ∀ x ∈ p.pending, x.2.purchasing ≠ some id

/-- Rows of orders stay, and none becomes unmarked. -/
theorem exec_order (env : Env) (h : Sound p) (hadm : Admissible l p) {o : Order}
    (ho : p.shared.orders.get? id = some o) :
    ∃ o', (exec (sem env) l p).shared.orders.get? id = some o' ∧
      (o'.status = .pendingProvider → o.status = .pendingProvider) := by
  cases l with
  | step j a =>
    obtain hs | ⟨_, i, _, e, R, -, hd, hsh, -⟩ := exec_does env h j a
    · rw [hs]
      exact ⟨o, ho, fun h => h⟩
    · rw [hsh]
      obtain ⟨o', ho', -, -, hst⟩ := hd.grows.orders id o ho
      exact ⟨o', ho', hst⟩
  | start => exact ⟨o, ho, fun h => h⟩
  | crash =>
    rw [shared_crash]
    exact ⟨o, ho, fun h => h⟩
  | external =>
    rw [Threads.exec, hadm.1]
    exact ⟨o, ho, fun h => h⟩

theorem Started.exec (h : Started id p) (hadm : Admissible l p) : Started id (exec (sem env) l p) := by
  obtain ⟨hsnd, o, ho, hst⟩ := h
  obtain ⟨o', ho', hmar⟩ := exec_order env hsnd hadm ho
  exact ⟨hsnd.exec hadm, o', ho', fun hpen => hst (hmar hpen)⟩

theorem Unbuyable.exec (h : Unbuyable id p) (hadm : Admissible l p) :
    Unbuyable id (exec (sem env) l p) := by
  obtain ⟨hsnd, ⟨o, ho⟩, hn⟩ := h
  obtain ⟨o', ho', -⟩ := exec_order env hsnd hadm ho
  refine ⟨hsnd.exec hadm, ⟨o', ho'⟩, ?_⟩
  cases l with
  | step j a =>
    obtain hs | ⟨tag, i, _, e, R, -, hd, -, hbef, haft⟩ := exec_does env hsnd j a
    · rwa [hs]
    · rw [haft]
      refine Effect.forall_pending hd.spawned (fun i' hi' hbuys => ?_) (hbef ▸ hn)
      obtain hi | ⟨-, rfl⟩ := hd.next.purchasing i' hi' id hbuys
      · exact hn (tag, i) (hbef ▸ Multiset.mem_cons_self _ _) hi
      · exact absurd (Table.lt_next_of_get? ho) (lt_irrefl _)
  | start =>
    obtain ⟨i, rfl, hi⟩ := hadm
    rw [pending_start, Multiset.forall_mem_cons]
    refine ⟨?_, hn⟩
    cases i <;> first | exact absurd hi Bool.false_ne_true | exact nofun
  | crash => exact fun x hx => hn x (Multiset.mem_of_le (pending_crash_le _ _ _) hx)
  | external => exact hn

theorem mem_pending_of_head? {j : ℕ} (h : i ∈ p.head? j) : ((), i) ∈ p.pending := by
  obtain ⟨t, ht, hi⟩ := bind_eq_some_iff.1 h
  exact mem_pendingOf.2 ⟨t, mem_of_getElem? ht, rfl, mem_of_head? hi⟩

/-- An order whose purchase is sent has been marked. -/
theorem Sends.started (h : Sends id l p) (hsnd : Sound p) : Started id p := by
  cases l with
  | step =>
    obtain ⟨i, hi, hpur⟩ := h
    obtain ⟨o, _, rfl⟩ := hpur.eq
    obtain ⟨o', ho', hst⟩ := hsnd.fits _ (mem_pending_of_head? hi)
    exact ⟨hsnd, o', ho', hst⟩
  | _ => exact h.elim

theorem Unbuyable.not_sends (h : Unbuyable id p) : ¬ Sends id l p := by
  cases l with
  | step =>
    rintro ⟨i, hi, hpur⟩
    obtain ⟨o, _, rfl⟩ := hpur.eq
    exact h.2.2 _ (mem_pending_of_head? hi) rfl
  | _ => exact fun h => h

/-- An order that a step aborts has not been marked. -/
theorem Aborts.pendingProvider (h : Aborts env id l p) (hunm : Unmarked l p) {o : Order}
    (ho : p.shared.orders.get? id = some o) : o.status = .pendingProvider := by
  cases l with
  | step j a =>
    obtain ⟨⟨i, hi, habo⟩, ⟨o₁, ho₁, hbef⟩, o₂, ho₂, haft⟩ := h
    obtain ⟨e, rfl, hc⟩ := habo.eq
    obtain rfl := mem_unique ho₁ ho
    have hnot := hunm _ hi hc o₁ ho
    -- the row has changed, so the transaction has been committed
    have hcha : (exec (sem env) (.step j a) p).shared ≠ p.shared := by
      intro hs
      rw [hs] at ho₂
      exact hbef (mem_unique ho₁ ho₂ ▸ haft)
    obtain hs | ⟨_, i, _, _, hth, hsem, hsh, -⟩ := exec_cases (sem env) j a p
    · exact absurd (congrArg Pool.shared hs) hcha
    · obtain rfl := mem_unique (Pool.head?_eq_some hth) hi
      rw [hsh] at hcha
      cases sem_leaves hsem with
      | stop => exact absurd rfl hcha
      | fail hok =>
        have hcas : _ ∨ Writes (fun _ => True) True id p.shared _ ∧ _ := fail_writes hok
        obtain hs | ⟨-, o, ho, hst⟩ := hcas
        · exact absurd hs hcha
        · obtain rfl := mem_unique ho₁ ho
          exact hst.resolve_right hnot
  | _ => exact h.elim

/-- The process that aborts an order holds the lease, so that no other is about to buy. -/
theorem Aborts.unbuyable (h : Aborts env id l p) (hsnd : Sound p) (hlea : Leased p)
    (hadm : Admissible l p) : Unbuyable id (exec (sem env) l p) := by
  cases l with
  | step j a =>
    obtain ⟨⟨i, hi, habo⟩, ⟨o, ho, -⟩, -⟩ := h
    obtain ⟨e, rfl, -⟩ := habo.eq
    refine Unbuyable.exec ⟨hsnd, ⟨o, ho⟩, fun x hx hbuys => ?_⟩ hadm
    obtain ⟨R, hR⟩ := Multiset.exists_cons_of_mem (mem_pending_of_head? hi)
    have hle := hlea.held_le
    have hfl : ofKind .held (.fail id e) = 1 := rfl
    rw [hR, weight_cons, hfl] at hle
    have hx' : x ∈ R := by
      rw [hR] at hx
      obtain rfl | hx := Multiset.mem_cons.1 hx
      · cases hbuys
      · exact hx
    have hh : x.2.kind = .held := by
      by_contra hkind
      cases (Instr.purchasing_of_kind hkind).symm.trans hbuys
    have hone := le_weight_of_mem (w := ofKind .held) hx'
    rw [ofKind_self hh] at hone
    omega
  | _ => exact h.elim

theorem Started.not_aborts (h : Started id p) (hunm : Unmarked l p) : ¬ Aborts env id l p := by
  obtain ⟨-, o, ho, hst⟩ := h
  exact fun habo => hst (habo.pendingProvider hunm ho)

/-- The steps of a run of the processes in which the lease is exclusive and no marked order is
aborted. -/
def Careful (l : Label Db Unit Instr Answer) (p : Pool Db Unit Instr) : Prop :=
  (Admissible l p ∧ Exclusive l p) ∧ Unmarked l p

theorem not_sends_of_aborts {steps : List (Label Db Unit Instr Answer)} (hsnd : Sound p)
    (hlea : Leased p) (hrun : Along (exec (sem env)) Careful p steps)
    (habor : Occurs (exec (sem env)) (Aborts env id) p steps) :
    ¬ Occurs (exec (sem env)) (Sends id) p steps := by
  induction steps generalizing p with
  | nil => exact not_false
  | cons l _ ih =>
    obtain ⟨⟨⟨hadm, hexcl⟩, hunm⟩, hss⟩ := hrun
    rintro (hsend | hsend) <;> rcases habor with habo | habo
    · exact (hsend.started hsnd).not_aborts hunm habo
    · exact not_occurs (fun p l hl h => h.not_aborts hl.2) (fun p l hl h => h.exec hl.1.1)
        ((hsend.started hsnd).exec hadm) hss habo
    · exact not_occurs (fun p l _ h => h.not_sends) (fun p l hl h => h.exec hl.1.1)
        (habo.unbuyable hsnd hlea hadm) hss hsend
    · exact ih (hsnd.exec hadm) (hlea.exec hsnd hadm hexcl) hss habo hsend

/-- **Only purchases that are never sent are aborted**, in every run of the processes with an
exclusive lease in which no order that has been marked as started is aborted. -/
theorem aborted_never_sent (env : Env) (users : Table User) (settings : Settings) (now : ℤ)
    (steps : List (Label Db Unit Instr Answer))
    (hrun : Along (exec (sem env)) (fun l p => (Admissible l p ∧ Exclusive l p) ∧ Unmarked l p)
      (opened users settings now) steps) (id : ℕ)
    (haborts : Occurs (exec (sem env)) (Aborts env id) (opened users settings now) steps) :
    ¬ Occurs (exec (sem env)) (Sends id) (opened users settings now) steps :=
  not_sends_of_aborts (sound_opened users settings now)
    ⟨(fun _ h => nomatch h), Nat.zero_le _⟩ hrun haborts

/-- The process that buys crashes after the reservation, and a reconciliation aborts the order. -/
def abortSteps : List (Label Db Unit Instr Answer) :=
  reserveSteps ++ [.crash 0, .start ⟨(), [.reconcile 10]⟩, .step 1 .ok, .step 1 .ok, .step 1 .ok,
    .step 1 .ok, .step 1 .ok]

theorem aborted_never_sent_crashed :
    Occurs (exec (sem exampleEnv)) (Aborts exampleEnv 1) exampleOpened abortSteps ∧
      ¬ Occurs (exec (sem exampleEnv)) (Sends 1) exampleOpened abortSteps := by
  have hadm : Along (exec (sem exampleEnv)) Admissible exampleOpened abortSteps := by
    simp [abortSteps, reserveSteps, Along, Admissible, Instr.isEntry]
  have haborts : Occurs (exec (sem exampleEnv)) (Aborts exampleEnv 1) exampleOpened abortSteps := by
    decide +kernel
  exact ⟨haborts, aborted_never_sent exampleEnv _ _ _ abortSteps
    ((hadm.and (by decide +kernel)).and (by decide +kernel)) 1 haborts⟩

/-- A reconciliation reads the order before the purchase starts and waits for the lease; the
purchase is sent and times out, and its process releases the lease. -/
def raceSteps : List (Label Db Unit Instr Answer) :=
  reserveSteps ++ [.start ⟨(), [.reconcile 10]⟩, .step 1 .ok, .step 0 .ok,
    .step 0 (.error .upstreamTimeout), .step 0 .ok, .step 0 .ok, .step 1 .ok, .step 1 .ok, .step 1 .ok]

/-- **A purchase that was sent can be aborted.** -/
theorem sent_then_aborted :
    Along (exec (sem exampleEnv)) (fun l p => Admissible l p ∧ Exclusive l p) exampleOpened raceSteps ∧
      Occurs (exec (sem exampleEnv)) (Sends 1) exampleOpened raceSteps ∧
      Occurs (exec (sem exampleEnv)) (Aborts exampleEnv 1) exampleOpened raceSteps := by
  have hadm : Along (exec (sem exampleEnv)) Admissible exampleOpened raceSteps := by
    simp [raceSteps, reserveSteps, Along, Admissible, Instr.isEntry]
  exact ⟨hadm.and (by decide +kernel), by decide +kernel, by decide +kernel⟩

end LmmApi.HeroSms.Email
