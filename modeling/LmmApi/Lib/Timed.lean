import Mathlib.Algebra.Order.Ring.Int

/-!
# Runs of a store under a clock

A store is driven by operations, each of which runs as one atomic transaction at the time it
carries. `Timed.Step` is one operation at a time not before the previous one, and
`Timed.Reaches` a finite run of them. The operations of a run may be restricted to those that meet
a condition on the state before the step; the unrestricted runs are those of the condition
`anyStep`.

`Timed.invariant` is the induction every safety result uses: a property of time and state that
each step keeps holds along every run.
-/

namespace LmmApi

open List

/-- A state together with the time of the last operation. -/
structure Timed (σ : Type*) where
  clock : ℤ
  state : σ

namespace Timed

variable {σ ι : Type*} (exec : ι → σ → σ) (time : ι → ℤ)

/-- The condition every step meets. -/
def anyStep : ι → σ → Prop := fun _ _ => True

/-- One operation, not before the previous one, that meets the condition `ok`. -/
inductive Step (ok : ι → σ → Prop) : Timed σ → Timed σ → Prop
  | mk {c : Timed σ} (i : ι) (hclock : c.clock ≤ time i) (hok : ok i c.state) :
      Step ok c ⟨time i, exec i c.state⟩

/-- A run of operations that meet the condition `ok`. -/
def Reaches (ok : ι → σ → Prop) : Timed σ → Timed σ → Prop :=
  Relation.ReflTransGen (Step exec time ok)

variable {exec time}

variable {ok : ι → σ → Prop}

/-- **The invariant rule**: what every step keeps, every run keeps. -/
theorem invariant {P : ℤ → σ → Prop}
    (hstep : ∀ t s i, P t s → t ≤ time i → ok i s → P (time i) (exec i s))
    {c c' : Timed σ} (h : Reaches exec time ok c c') (h₀ : P c.clock c.state) :
    P c'.clock c'.state := by
  induction h with
  | refl => exact h₀
  | tail _ hs ih =>
    obtain ⟨i, hclock, hok⟩ := hs
    exact hstep _ _ i ih hclock hok

/-- A step is a run. -/
theorem Reaches.single {c : Timed σ} (i : ι) (hclock : c.clock ≤ time i)
    (hok : ok i c.state) : Reaches exec time ok c ⟨time i, exec i c.state⟩ :=
  Relation.ReflTransGen.single (.mk i hclock hok)

/-- A run whose steps meet a condition is a run. -/
theorem Reaches.toAny {c c' : Timed σ} (h : Reaches exec time ok c c') :
    Reaches exec time anyStep c c' := by
  induction h with
  | refl => exact .refl
  | tail _ hs ih =>
    obtain ⟨i, hclock, -⟩ := hs
    exact ih.tail (.mk i hclock trivial)

variable (exec time) in
/-- The configuration after a list of operations. -/
def runList (c : Timed σ) (ops : List ι) : Timed σ :=
  ops.foldl (fun c i => ⟨time i, exec i c.state⟩) c

/-- A list of operations at non-decreasing times, each of which meets the condition `ok` in the
state it runs in, is a run under this condition. -/
theorem reaches_runList_of (c : Timed σ) (ops : List ι)
    (hclock : (c.clock :: ops.map time).IsChain (· ≤ ·))
    (hok : ∀ n (hn : n < ops.length), ok ops[n] (runList exec time c (ops.take n)).state) :
    Reaches exec time ok c (runList exec time c ops) := by
  induction ops generalizing c with
  | nil => exact Relation.ReflTransGen.refl
  | cons i _ ih =>
    rw [map_cons, isChain_cons_cons] at hclock
    refine Relation.ReflTransGen.head (.mk i hclock.1 (hok 0 (Nat.succ_pos _))) ?_
    exact ih ⟨time i, exec i c.state⟩ hclock.2 fun n hn => hok (n + 1) (Nat.succ_lt_succ hn)

/-- A list of operations at non-decreasing times is a run. -/
theorem reaches_runList (c : Timed σ) (ops : List ι)
    (h : (c.clock :: ops.map time).IsChain (· ≤ ·)) :
    Reaches exec time anyStep c (runList exec time c ops) :=
  reaches_runList_of c ops h fun _ _ => trivial

end Timed

end LmmApi
