import LmmApi.Lib.Attribution
import Mathlib.Algebra.BigOperators.Group.Multiset.Basic
import Mathlib.Algebra.Order.BigOperators.Group.Multiset
import Mathlib.Tactic.Abel

/-!
# Threads over a shared state

A thread is the list of the instructions it still has to execute, under a tag that says which thread
it is. An instruction is one atomic step on the shared state. With an answer of the environment it
gives the new state, the instructions to execute next, in front of the rest of its thread, and the
threads it starts; it gives nothing if it cannot execute. A function call is an instruction that
expands to its body, and a loop one that expands to itself.

A run interleaves the steps of the threads in any order. Threads are started from outside at any
time, a thread may crash, which loses its instructions, and others may write the shared state.

What a step can do is said once, in `exec_cases`: it only concerns the shared state and the multiset
of pending instructions. The `weight` of the pending instructions counts those that are responsible
for something.
-/

namespace LmmApi.Threads

open Attribution List Option

variable {σ τ ι χ : Type*}

/-- A tag and the instructions still to execute. -/
structure Thread (τ ι : Type*) where
  tag : τ
  code : List ι
  deriving DecidableEq

/-- A shared state with the threads that work on it. -/
structure Pool (σ τ ι : Type*) where
  shared : σ
  threads : List (Thread τ ι)

/-- What an instruction does. -/
structure Effect (σ τ ι : Type*) where
  shared : σ
  next : List ι := []
  spawned : List (Thread τ ι) := []

/-- An effect on the shared state with what to do next. -/
def goto (s : σ) (next : List ι) : Option (Effect σ τ ι) := some ⟨s, next, []⟩

/-- An instruction that only reads: its thread goes on if what it asks for is granted, and ends if
not. It does not take other answers. -/
def guarded (s : σ) (next : List ι) : Option Bool → Option (Effect σ τ ι)
  | some true => goto s next
  | some false => goto s []
  | none => none

/-- A step of a run. -/
inductive Label (σ τ ι χ : Type*)
  /-- The thread at a position executes an instruction, with an answer of the environment. -/
  | step (j : ℕ) (answer : χ)
  | start (t : Thread τ ι)
  | crash (j : ℕ)
  /-- Others write the shared state. -/
  | external (s : σ)

/-- The instruction that the thread at a position executes next. -/
def Pool.head? (p : Pool σ τ ι) (j : ℕ) : Option ι := (p.threads[j]?).bind fun t => t.code.head?

variable {p : Pool σ τ ι} {e : Effect σ τ ι} {x : τ × ι} {l : Label σ τ ι χ} {j : ℕ} {answer : χ}
  {tag : τ} {i : ι} {rest : List ι}

theorem goto_eq_some {s : σ} {next : List ι} (h : goto s next = some e) : e = ⟨s, next, []⟩ :=
  (some.inj h).symm

theorem guarded_eq_some {s : σ} {next : List ι} {granted : Option Bool}
    (h : guarded s next granted = some e) :
    (granted = some true ∧ goto s next = some e) ∨ goto s [] = some e := by
  obtain _ | _ | _ := granted
  · cases h
  · exact .inr h
  · exact .inl ⟨rfl, h⟩

theorem Pool.head?_eq_some (h : p.threads[j]? = some ⟨tag, i :: rest⟩) : p.head? j = some i := by
  rw [Pool.head?, h, bind_some, head?_cons]

/-- The thread whose next instruction is known. -/
theorem Pool.thread_of_head? (h : p.head? j = some i) :
    ∃ tag rest, p.threads[j]? = some ⟨tag, i :: rest⟩ := by
  obtain ⟨⟨tag, _⟩, hth, hc⟩ := bind_eq_some_iff.1 h
  obtain ⟨rest, rfl⟩ := head?_eq_some_iff.1 hc
  exact ⟨tag, rest, hth⟩

/-- Steps of threads only, with a condition on the instruction they execute. -/
def OnlySteps (ok : ι → χ → σ → Prop) : Label σ τ ι χ → Pool σ τ ι → Prop
  | .step j answer, p => ∀ i ∈ p.head? j, ok i answer p.shared
  | _, _ => False

instance (ok : ι → χ → σ → Prop) [∀ i a s, Decidable (ok i a s)] :
    ∀ (l : Label σ τ ι χ) (p : Pool σ τ ι), Decidable (OnlySteps ok l p)
  | .step _ _, _ => inferInstanceAs (Decidable (∀ i ∈ _, ok i _ _))
  | .start _, _ => isFalse not_false
  | .crash _, _ => isFalse not_false
  | .external _, _ => isFalse not_false

/-- The pending instructions of some threads, with the tags of their threads. -/
def pendingOf (threads : List (Thread τ ι)) : Multiset (τ × ι) :=
  (threads.flatMap fun t => t.code.map (t.tag, ·) : List (τ × ι))

def Pool.pending (p : Pool σ τ ι) : Multiset (τ × ι) := pendingOf p.threads

@[simp] theorem pendingOf_nil : pendingOf ([] : List (Thread τ ι)) = 0 := rfl

theorem pendingOf_append (l l' : List (Thread τ ι)) :
    pendingOf (l ++ l') = pendingOf l + pendingOf l' := by
  simp [pendingOf]

theorem pendingOf_cons (t : Thread τ ι) (l : List (Thread τ ι)) :
    pendingOf (t :: l) = (t.code.map (t.tag, ·) : List (τ × ι)) + pendingOf l := by
  simp [pendingOf]

theorem pendingOf_singleton (t : Thread τ ι) :
    pendingOf [t] = (t.code.map (t.tag, ·) : List (τ × ι)) := by
  simp [pendingOf]

theorem mem_pendingOf {threads : List (Thread τ ι)} :
    x ∈ pendingOf threads ↔ ∃ t ∈ threads, t.tag = x.1 ∧ x.2 ∈ t.code := by
  obtain ⟨_, i⟩ := x
  simp [pendingOf, and_comm]

/-- Nothing is pending when every thread has ended. -/
theorem pendingOf_eq_zero {threads : List (Thread τ ι)} (h : ∀ t ∈ threads, t.code = []) :
    pendingOf threads = 0 := by
  rw [pendingOf, Multiset.coe_eq_zero, flatMap_eq_nil_iff]
  intro t ht
  rw [h t ht, map_nil]

/-- The pending instructions after an instruction of a thread with the tag. -/
def Effect.pending (e : Effect σ τ ι) (tag : τ) : Multiset (τ × ι) :=
  (e.next.map (tag, ·) : List (τ × ι)) + pendingOf e.spawned

theorem Effect.pending_nil (s : σ) (tag : τ) (R : Multiset (τ × ι)) :
    (⟨s, [], []⟩ : Effect σ τ ι).pending tag + R = R := by
  simp [Effect.pending]

theorem Effect.pending_singleton (s : σ) (tag : τ) (i : ι) (R : Multiset (τ × ι)) :
    (⟨s, [i], []⟩ : Effect σ τ ι).pending tag + R = (tag, i) ::ₘ R := by
  simp [Effect.pending]

theorem Effect.mem_pending_iff :
    x ∈ e.pending tag ↔ (x.1 = tag ∧ x.2 ∈ e.next) ∨ x ∈ pendingOf e.spawned := by
  obtain ⟨_, i⟩ := x
  simp [Effect.pending, and_comm, eq_comm]

theorem Effect.mem_pending (h : i ∈ e.next) (tag : τ) : (tag, i) ∈ e.pending tag :=
  Multiset.mem_add.2 (.inl (List.mem_map_of_mem h))

/-- What holds of all pending instructions holds of them after one that starts no threads, if it holds
of those that come next. -/
theorem Effect.forall_pending {Q : τ × ι → Prop} {R : Multiset (τ × ι)}
    (hspn : e.spawned = []) (hn : ∀ i ∈ e.next, Q (tag, i)) (hr : ∀ y ∈ x ::ₘ R, Q y) :
    ∀ y ∈ e.pending tag + R, Q y := by
  intro y hy
  rw [Multiset.mem_add, mem_pending_iff, hspn] at hy
  obtain (⟨rfl, hy⟩ | hy) | hy := hy
  · exact hn _ hy
  · exact absurd hy (Multiset.notMem_zero y)
  · exact hr y (Multiset.mem_cons_of_mem hy)

variable (sem : ι → χ → σ → Option (Effect σ τ ι))

/-- The pool after a step. A thread that has ended, is blocked or does not take the answer stays as
it is. -/
def exec : Label σ τ ι χ → Pool σ τ ι → Pool σ τ ι
  | .step j answer, p =>
    match p.threads[j]? with
    | some ⟨tag, i :: rest⟩ =>
      match sem i answer p.shared with
      | some e => ⟨e.shared, p.threads.set j ⟨tag, e.next ++ rest⟩ ++ e.spawned⟩
      | none => p
    | _ => p
  | .start t, p => { p with threads := p.threads ++ [t] }
  | .crash j, p =>
    match p.threads[j]? with
    | some t => { p with threads := p.threads.set j ⟨t.tag, []⟩ }
    | none => p
  | .external s, p => { p with shared := s }

/-- A list is the part before a position, the element there and the part after it. -/
theorem exists_split {α : Type*} {l : List α} {j : ℕ} {x : α} (h : l[j]? = some x) :
    ∃ before after, l = before ++ x :: after ∧ ∀ y, l.set j y = before ++ y :: after := by
  obtain ⟨hlt, rfl⟩ := List.getElem?_eq_some_iff.1 h
  exact ⟨l.take j, l.drop (j + 1), by simp, fun y => by
    rw [set_eq_take_append_cons_drop, if_pos hlt]⟩

variable {sem} in
/-- An instruction that executes is replaced by its effect. -/
theorem exec_of_sem (hth : p.threads[j]? = some ⟨tag, i :: rest⟩)
    (hsem : sem i answer p.shared = some e) :
    (exec sem (.step j answer) p).shared = e.shared ∧
      ∃ R, p.pending = (tag, i) ::ₘ R ∧ (exec sem (.step j answer) p).pending = e.pending tag + R := by
  obtain ⟨before, after, hspl, hset⟩ := exists_split hth
  refine ⟨by simp [exec, hth, hsem],
    pendingOf before + ((rest.map (tag, ·) : List (τ × ι)) + pendingOf after), ?_, ?_⟩
  · rw [Pool.pending, hspl, pendingOf_append, pendingOf_cons, map_cons,
      ← Multiset.cons_coe, Multiset.cons_add, Multiset.add_cons]
  · simp only [exec, hth, hsem, Pool.pending, hset, pendingOf_append, pendingOf_cons,
      Effect.pending, map_append, ← Multiset.coe_add]
    abel

variable {sem} in
/-- The thread that executes an instruction goes on with its effect. -/
theorem threads_exec_of_sem (hth : p.threads[j]? = some ⟨tag, i :: rest⟩)
    (hsem : sem i answer p.shared = some e) :
    (exec sem (.step j answer) p).threads[j]? = some ⟨tag, e.next ++ rest⟩ := by
  obtain ⟨hlt, -⟩ := List.getElem?_eq_some_iff.1 hth
  simp only [exec, hth, hsem]
  rw [getElem?_append_left (by simpa using hlt), getElem?_set_self hlt]

/-- A thread stays as it is while it neither takes a step nor crashes. -/
theorem threads_exec_of_ne {t : Thread τ ι} (hs : ∀ answer, l ≠ .step j answer)
    (hcra : l ≠ .crash j) (h : p.threads[j]? = some t) :
    (exec sem l p).threads[j]? = some t := by
  obtain ⟨hlt, -⟩ := List.getElem?_eq_some_iff.1 h
  cases l with
  | step k answer =>
    have hne : k ≠ j := fun hkj => hs answer (hkj ▸ rfl)
    simp only [exec]
    split
    · split
      · rw [getElem?_append_left (by simpa using hlt), getElem?_set_ne hne, h]
      · exact h
    · exact h
  | start => rw [exec, getElem?_append_left hlt, h]
  | crash k =>
    have hne : k ≠ j := fun hkj => hcra (hkj ▸ rfl)
    simp only [exec]
    split
    · rw [getElem?_set_ne hne, h]
    · exact h
  | external => exact h

theorem along_of_onlySteps {sem : ι → χ → σ → Option (Effect σ τ ι)} {ok : ι → χ → σ → Prop}
    {P : Label σ τ ι χ → Pool σ τ ι → Prop} {steps : List (Label σ τ ι χ)}
    (h : Along (exec sem) (OnlySteps ok) p steps)
    (hP : ∀ j a p, OnlySteps ok (.step j a) p → P (.step j a) p) : Along (exec sem) P p steps :=
  h.mono fun l p hl => by
    cases l with
    | step j a => exact hP j a p hl
    | _ => exact hl.elim

/-- **What a step of a thread can do**: nothing, or one of the pending instructions is replaced by
its effect. -/
theorem exec_cases (j : ℕ) (answer : χ) (p : Pool σ τ ι) : exec sem (.step j answer) p = p ∨
      ∃ tag i rest e, p.threads[j]? = some ⟨tag, i :: rest⟩ ∧ sem i answer p.shared = some e ∧
        (exec sem (.step j answer) p).shared = e.shared ∧ ∃ R, p.pending = (tag, i) ::ₘ R ∧
          (exec sem (.step j answer) p).pending = e.pending tag + R := by
  cases hth : p.threads[j]? with
  | none => exact .inl (by simp [exec, hth])
  | some t =>
    obtain ⟨tag, code⟩ := t
    cases code with
    | nil => exact .inl (by simp [exec, hth])
    | cons i rest =>
      cases hsem : sem i answer p.shared with
      | none => exact .inl (by simp [exec, hth, hsem])
      | some e => exact .inr ⟨tag, i, rest, e, rfl, hsem, exec_of_sem hth hsem⟩

theorem pending_crash_le (j : ℕ) (p : Pool σ τ ι) : (exec sem (.crash j) p).pending ≤ p.pending := by
  cases hth : p.threads[j]? with
  | none => simp [exec, hth]
  | some =>
    obtain ⟨_, _, hspl, hset⟩ := exists_split hth
    simp only [exec, hth, Pool.pending, hset]
    rw [hspl, pendingOf_append, pendingOf_append, pendingOf_cons, pendingOf_cons, map_nil,
      Multiset.coe_nil, zero_add]
    exact add_le_add_right (Multiset.le_add_left _ _) _

theorem shared_crash (j : ℕ) (p : Pool σ τ ι) : (exec sem (.crash j) p).shared = p.shared := by
  simp only [exec]
  split <;> rfl

/-- A call from outside. -/
theorem pending_start (tag : τ) (i : ι) (p : Pool σ τ ι) :
    (exec sem (.start ⟨tag, [i]⟩) p).pending = (tag, i) ::ₘ p.pending := by
  rw [exec, Pool.pending, Pool.pending, pendingOf_append, pendingOf_singleton, add_comm]
  rfl

variable {sem} in
/-- What holds of the code of every thread after a step: the code of a thread that executes an
instruction goes on with what is left to do, and a crash leaves none. -/
theorem forall_code_exec {P : List ι → Prop} (hnil : P [])
    (hsta : ∀ t, l = .start t → P t.code)
    (hs : ∀ tag i rest a e, (tag, i) ∈ p.pending → P (i :: rest) → sem i a p.shared = some e →
      P (e.next ++ rest) ∧ ∀ t ∈ e.spawned, P t.code)
    (h : ∀ t ∈ p.threads, P t.code) : ∀ t ∈ (exec sem l p).threads, P t.code := by
  cases l with
  | step j a =>
    obtain heq | ⟨tag, i, rest, e, hth, hsem, -⟩ := exec_cases sem j a p
    · rwa [heq]
    · have hm := mem_of_getElem? hth
      have hpen : (tag, i) ∈ p.pending := mem_pendingOf.2 ⟨_, hm, rfl, mem_cons_self⟩
      obtain ⟨hn, hspn⟩ := hs tag i rest a e hpen (h _ hm) hsem
      simp only [exec, hth, hsem]
      refine forall_mem_append.2 ⟨fun t ht => ?_, hspn⟩
      obtain ht | rfl := mem_or_eq_of_mem_set ht
      · exact h t ht
      · exact hn
  | start t => exact forall_mem_append.2 ⟨h, forall_mem_singleton.2 (hsta t rfl)⟩
  | crash j =>
    cases hth : p.threads[j]? with
    | none => simpa [exec, hth] using h
    | some =>
      simp only [exec, hth]
      intro t' ht
      obtain ht | rfl := mem_or_eq_of_mem_set ht
      · exact h t' ht
      · exact hnil
  | external => exact h

/-! ## Weights -/

/-- The sum of the weights of pending instructions. -/
def weight (w : ι → ℕ) (m : Multiset (τ × ι)) : ℕ := (m.map fun x => w x.2).sum

variable {w : ι → ℕ}

@[simp] theorem weight_zero : weight w (0 : Multiset (τ × ι)) = 0 := rfl

theorem weight_cons (x : τ × ι) (m : Multiset (τ × ι)) : weight w (x ::ₘ m) = w x.2 + weight w m := by
  simp [weight]

theorem weight_add (m m' : Multiset (τ × ι)) : weight w (m + m') = weight w m + weight w m' := by
  simp [weight]

theorem weight_coe (tag : τ) (code : List ι) :
    weight w ((code.map (tag, ·) : List (τ × ι)) : Multiset (τ × ι)) = (code.map w).sum := by
  simp [weight, Function.comp_def]

theorem weight_le_weight {w' : ι → ℕ} (h : ∀ i, w i ≤ w' i) (m : Multiset (τ × ι)) :
    weight w m ≤ weight w' m :=
  Multiset.sum_map_le_sum_map _ _ fun x _ => h x.2

/-- The weight of what an instruction leaves to do. -/
def Effect.weight (w : ι → ℕ) (e : Effect σ τ ι) : ℕ :=
  (e.next.map w).sum + (e.spawned.map fun t => (t.code.map w).sum).sum

theorem weight_pendingOf (threads : List (Thread τ ι)) :
    weight w (pendingOf threads) = (threads.map fun t => (t.code.map w).sum).sum := by
  induction threads with
  | nil => rfl
  | cons _ _ ih => rw [pendingOf_cons, weight_add, weight_coe, ih, map_cons, sum_cons]

theorem Effect.weight_pending (e : Effect σ τ ι) (tag : τ) :
    Threads.weight w (e.pending tag) = e.weight w := by
  rw [Effect.pending, weight_add, weight_coe, weight_pendingOf, Effect.weight]

/-- Weights are compared thread by thread. -/
theorem weight_pending_le {w' : ι → ℕ}
    (h : ∀ t ∈ p.threads, (t.code.map w).sum ≤ (t.code.map w').sum) :
    weight w p.pending ≤ weight w' p.pending := by
  rw [Pool.pending, weight_pendingOf, weight_pendingOf]
  exact sum_le_sum h

/-- Some pending instruction has a weight if the sum is positive. -/
theorem exists_of_weight_pos {m : Multiset (τ × ι)} (h : 0 < weight w m) : ∃ x ∈ m, 0 < w x.2 := by
  by_contra! hno
  refine h.ne' (Multiset.sum_eq_zero fun n hn => ?_)
  obtain ⟨x, hx, rfl⟩ := Multiset.mem_map.1 hn
  exact Nat.le_zero.1 (hno x hx)

theorem le_weight_of_mem {m : Multiset (τ × ι)} (h : x ∈ m) : w x.2 ≤ weight w m := by
  obtain ⟨R, rfl⟩ := Multiset.exists_cons_of_mem h
  rw [weight_cons]
  exact Nat.le_add_right _ _

/-! ## Runs that end -/

/-- Whether a step executes an instruction. -/
def executes : Label σ τ ι χ → Pool σ τ ι → Bool
  | .step j answer, p =>
    match p.threads[j]? with
    | some ⟨_, i :: _⟩ => (sem i answer p.shared).isSome
    | _ => false
  | _, _ => false

/-- The number of instructions that a run executes. -/
def executed : Pool σ τ ι → List (Label σ τ ι χ) → ℕ
  | _, [] => 0
  | p, l :: steps => (if executes sem l p then 1 else 0) + executed (exec sem l p) steps

/-- The instruction that a step executes leaves less to do. -/
def Lessens (w : ι → ℕ) : Label σ τ ι χ → Pool σ τ ι → Prop
  | .step j answer, p => ∀ tag i rest e, p.threads[j]? = some ⟨tag, i :: rest⟩ →
    sem i answer p.shared = some e → e.weight w < w i
  | .start _, _ => False
  | _, _ => True

variable {sem} in
/-- A step that is no start of a thread takes its instruction from what there is to do. -/
theorem executes_le (hl : Lessens sem w l p) :
    (if executes sem l p then 1 else 0) + weight w (exec sem l p).pending ≤ weight w p.pending := by
  cases l with
  | step j a =>
    by_cases h : executes sem (.step j a) p
    · simp only [executes] at h
      split at h
      case h_1 tag i rest hth =>
        obtain ⟨e, hsem⟩ := isSome_iff_exists.1 h
        obtain ⟨-, R, hbef, haft⟩ := exec_of_sem hth hsem
        have hless := hl tag i rest e hth hsem
        rw [haft, hbef, weight_add, weight_cons, Effect.weight_pending]
        dsimp only
        split <;> omega
      case h_2 => exact absurd h Bool.false_ne_true
    · rw [if_neg h, zero_add]
      obtain hs | ⟨_, i, _, e, hth, hsem, -⟩ := exec_cases sem j a p
      · rw [hs]
      · simp [executes, hth, hsem] at h
  | start => exact hl.elim
  | crash j =>
    obtain ⟨R, hR⟩ := Multiset.le_iff_exists_add.1 (pending_crash_le sem j p)
    rw [hR, weight_add]
    simp [executes]
  | external => simp [executes, exec, Pool.pending]

variable {sem} in
/-- **Runs end**: a run whose steps leave less to do, and start no threads, executes at most as many
instructions as the weight of what there is to do. -/
theorem executed_le_of_lessens {steps : List (Label σ τ ι χ)}
    (h : Along (exec sem) (Lessens sem w) p steps) : executed sem p steps ≤ weight w p.pending := by
  induction steps generalizing p with
  | nil => exact Nat.zero_le _
  | cons l steps ih =>
    have hs := executes_le h.1
    have hn := ih h.2
    rw [executed]
    omega

variable {sem} in
/-- Runs without new threads end if every instruction leaves less to do. -/
theorem executed_le {ok : Label σ τ ι χ → Pool σ τ ι → Prop} {P : Pool σ τ ι → Prop}
    (hok : ∀ l p, ok l p → ∀ t, l ≠ .start t)
    (hw : ∀ p, P p → ∀ tag i a e, (tag, i) ∈ p.pending → sem i a p.shared = some e →
      e.weight w < w i) (hP : ∀ p l, ok l p → P p → P (exec sem l p)) (hp : P p)
    {steps : List (Label σ τ ι χ)} (halo : Along (exec sem) ok p steps) :
    executed sem p steps ≤ weight w p.pending := by
  refine executed_le_of_lessens (halo.of_invariant (fun p l hl h => ?_) hP hp)
  cases l with
  | step _ a =>
    intro tag i rest e hth hsem
    obtain ⟨-, R, hbef, -⟩ := exec_of_sem hth hsem
    exact hw p h tag i a e (hbef ▸ Multiset.mem_cons_self _ _) hsem
  | start t => exact absurd rfl (hok _ _ hl t)
  | crash | external => trivial

end LmmApi.Threads
