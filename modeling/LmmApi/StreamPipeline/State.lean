import LmmApi.Lib.Delivery
import LmmApi.Lib.Guarded
import Mathlib.Data.Finset.Card

/-!
# The typed state of a canonical stream

`TypedStreamState.apply` accepts or refuses one canonical event. `Grammatical` says which event may
stand where in a stream, in terms of the events before it only, and `Reflects.apply` that the state
knows what it must of the accepted events, so that they are grammatical.
-/

namespace LmmApi.StreamPipeline

open Attribution Guarded

/-! ## The state machine -/

inductive StreamContentKind
  | text | toolCall | reasoning

inductive FinishReason
  | stop | length | toolCalls | contentFilter | cancelled | error | other

structure TokenUsage where
  inputTokens : ℕ
  outputTokens : ℕ
  totalTokens : ℕ
  cachedInputTokens : ℕ
  reasoningTokens : ℕ

inductive CanonicalStreamEvent
  | responseStart (id model : String)
  | contentStart (index : ℕ) (kind : StreamContentKind)
  | textDelta (index : ℕ) (delta : String)
  | reasoningDelta (index : ℕ) (delta : String)
  | toolCallStart (index : ℕ) (id name : String)
  | toolArgumentsDelta (index : ℕ) (delta : String)
  | contentEnd (index : ℕ)
  | responseEnd (finishReason : FinishReason) (usage : Option TokenUsage) (model : Option String)
  | error (code : Option String) (message : String)
  | cancelled

inductive TypedStreamFailure
  | frameTooLarge (limit observed : ℕ)
  | outOfOrder
  | duplicateTerminal
  | afterTerminal
  | cancelled
  | poisoned
  | outputItemsExceeded (limit observed : ℕ)
  | outputBytesExceeded (limit observed : ℕ)
  | invalidTransition
  | unknownEvent

/-- `DEFAULT_MAX_BLOCK_INDEX`. -/
def maxBlockIndex : ℕ := 16384

structure TypedStreamState where
  started : Bool := false
  terminal : Bool := false
  cancelled : Bool := false
  terminalErrorSeen : Bool := false
  terminalCancelledSeen : Bool := false
  openBlocks : Finset ℕ := ∅
  seenBlocks : Finset ℕ := ∅
  usage : Option TokenUsage := none
  usageFinalized : Bool := false

namespace TypedStreamState

/-- `require_active` and `require_content_active`, which differ in the failure after the end. -/
def requireWith (ended : TypedStreamFailure) (s : TypedStreamState) :
    Except TypedStreamFailure Unit :=
  if s.started && !s.terminal && !s.cancelled then .ok ()
  else if s.terminal then .error ended
  else if s.cancelled then .error .cancelled
  else .error .outOfOrder

def requireActive : TypedStreamState → Except TypedStreamFailure Unit :=
  requireWith .duplicateTerminal

def requireContentActive : TypedStreamState → Except TypedStreamFailure Unit :=
  requireWith .afterTerminal

variable (s : TypedStreamState)

def start : Except TypedStreamFailure TypedStreamState := do
  require .outOfOrder ¬(s.started || s.terminal || s.cancelled)
  return { s with started := true }

def blockStart (index : ℕ) (s : TypedStreamState) : Except TypedStreamFailure TypedStreamState := do
  s.requireContentActive
  require .outOfOrder ¬(maxBlockIndex < index ∨ index ∈ s.openBlocks ∨ index ∈ s.seenBlocks ∨
    maxBlockIndex ≤ s.seenBlocks.card)
  return { s with
    seenBlocks := insert index s.seenBlocks, openBlocks := insert index s.openBlocks }

def blockDelta (index : ℕ) (s : TypedStreamState) : Except TypedStreamFailure TypedStreamState := do
  s.requireContentActive
  require .outOfOrder (index ∈ s.openBlocks)
  return s

def blockEnd (index : ℕ) (s : TypedStreamState) : Except TypedStreamFailure TypedStreamState := do
  s.requireContentActive
  require .outOfOrder (index ∈ s.openBlocks)
  return { s with openBlocks := s.openBlocks.erase index }

def terminalWithUsage (usage : Option TokenUsage) (s : TypedStreamState) :
    Except TypedStreamFailure TypedStreamState := do
  s.requireActive
  require .outOfOrder (s.openBlocks = ∅)
  return { s with usage := usage.or s.usage, terminal := true, usageFinalized := true }

/-- The checks that `mark_error` and `mark_cancelled` begin with, up to the mark each of them has of
its own. -/
def requireMark (seen : Bool) (s : TypedStreamState) : Except TypedStreamFailure Unit := do
  require .outOfOrder s.started
  require .outOfOrder (s.openBlocks = ∅)
  require .cancelled ¬(s.cancelled && !s.terminal)
  require .duplicateTerminal ¬seen

def markError : Except TypedStreamFailure TypedStreamState := do
  s.requireMark s.terminalErrorSeen
  return { s with terminalErrorSeen := true, terminal := true }

def markCancelled : Except TypedStreamFailure TypedStreamState := do
  s.requireMark s.terminalCancelledSeen
  return { s with terminalCancelledSeen := true, cancelled := true, terminal := true }

def apply : CanonicalStreamEvent → Except TypedStreamFailure TypedStreamState
  | .responseStart _ _ => s.start
  | .contentStart index _ => s.blockStart index
  | .textDelta index _ | .reasoningDelta index _ | .toolCallStart index _ _
  | .toolArgumentsDelta index _ => s.blockDelta index
  | .contentEnd index => s.blockEnd index
  | .responseEnd _ usage _ => s.terminalWithUsage usage
  | .error _ _ => s.markError
  | .cancelled => s.markCancelled

def cancel : Except TypedStreamFailure TypedStreamState := do
  require .cancelled ¬(s.terminal || s.cancelled)
  return { s with cancelled := true }

end TypedStreamState

/-! ## The grammar of a stream -/

namespace CanonicalStreamEvent

/-- The block that an event starts. -/
@[simp, grind] def starts? : CanonicalStreamEvent → Option ℕ
  | contentStart index _ => some index
  | _ => none

/-- The block inside which an event stands, the end of the block included. -/
@[simp, grind] def inside? : CanonicalStreamEvent → Option ℕ
  | textDelta index _ | reasoningDelta index _ | toolCallStart index _ _
  | toolArgumentsDelta index _ | contentEnd index => some index
  | _ => none

@[simp, grind] def isStart : CanonicalStreamEvent → Bool
  | responseStart _ _ => true
  | _ => false

@[simp, grind] def isError : CanonicalStreamEvent → Bool
  | error _ _ => true
  | _ => false

@[simp, grind] def isCancelled : CanonicalStreamEvent → Bool
  | cancelled => true
  | _ => false

@[simp, grind] def isTerminal : CanonicalStreamEvent → Bool
  | responseEnd _ _ _ | error _ _ | cancelled => true
  | _ => false

end CanonicalStreamEvent

/-- The block is started and not ended. -/
def IsOpen (before : List CanonicalStreamEvent) (index : ℕ) : Prop :=
  some index ∈ before.map (·.starts?) ∧ .contentEnd index ∉ before

/-- The event may follow the events before it. -/
structure Allowed (before : List CanonicalStreamEvent) (e : CanonicalStreamEvent) : Prop where
  start : e.isStart = true ↔ before = []
  once : ∀ i, e.starts? = some i → some i ∉ before.map (·.starts?)
  inside : ∀ i, e.inside? = some i → IsOpen before i
  closed : e.isTerminal = true → ∀ i, ¬ IsOpen before i
  postlude : before.any (·.isTerminal) = true → e.isError = true ∨ e.isCancelled = true
  error : e.isError = true → before.any (·.isError) = false
  cancelled : e.isCancelled = true → before.any (·.isCancelled) = false

/-- Every event of a stream may follow the events before it. -/
abbrev Grammatical : List CanonicalStreamEvent → Prop := Stepwise Allowed

/-! ## What the state knows -/

/-- The state knows of the accepted events what `apply` checks. -/
structure Reflects (events : List CanonicalStreamEvent) (s : TypedStreamState) : Prop where
  grammatical : Grammatical events
  started : s.started = true ↔ events ≠ []
  seen : ∀ i, i ∈ s.seenBlocks ↔ some i ∈ events.map (·.starts?)
  opened : ∀ i, i ∈ s.openBlocks ↔ IsOpen events i
  ended : ∀ i, .contentEnd i ∈ events → i ∈ s.seenBlocks
  terminal : s.terminal = events.any (·.isTerminal)
  error : s.terminalErrorSeen = events.any (·.isError)
  cancelled : s.terminalCancelledSeen = events.any (·.isCancelled)

theorem reflects_new : Reflects [] {} := by constructor <;> simp [Stepwise.nil, IsOpen]

variable {events : List CanonicalStreamEvent} {s s' : TypedStreamState} {e : CanonicalStreamEvent}

open TypedStreamState

theorem requireWith_eq_ok {ended : TypedStreamFailure} {u : Unit}
    (h : s.requireWith ended = .ok u) : s.started = true ∧ s.terminal = false := by
  unfold requireWith at h
  split at h
  · simp_all
  · split at h
    · cases h
    · split at h <;> cases h

theorem requireMark_eq_ok {seen : Bool} {u : Unit} (h : s.requireMark seen = .ok u) :
    s.started = true ∧ s.openBlocks = ∅ ∧ seen = false := by
  simp only [requireMark, bind_eq_ok, require_eq_ok] at h
  obtain ⟨_, hsta, _, hcl, _, -, hseen⟩ := h
  exact ⟨hsta, hcl, Bool.eq_false_of_not_eq_true hseen⟩

/-- **The state machine accepts only what the grammar allows**, and keeps track of it. -/
theorem Reflects.apply (h : Reflects events s) (happ : s.apply e = .ok s') :
    Reflects (events ++ [e]) s' := by
  obtain ⟨hgra, hsta, hseen, hope, hend, hterm, herr, hcan⟩ := h
  cases e <;> simp only [apply, start, blockStart, blockDelta, blockEnd,
    terminalWithUsage, markError, markCancelled,
    eq_ok] at happ
  case responseStart =>
    obtain ⟨_, hnew, rfl⟩ := happ
    obtain rfl : events = [] := by grind
    refine ⟨hgra.snoc ⟨?_, ?_, ?_, ?_, ?_, ?_, ?_⟩, by simp, ?_, ?_, ?_, ?_, ?_, ?_⟩ <;>
      grind [IsOpen]
  case error | cancelled =>
    obtain ⟨_, hmark, rfl⟩ := happ
    obtain ⟨hbeg, hcl, hnew⟩ := requireMark_eq_ok hmark
    refine ⟨hgra.snoc ⟨?_, ?_, ?_, ?_, ?_, ?_, ?_⟩, by simp [hbeg], ?_, ?_, ?_, ?_, ?_, ?_⟩ <;>
      grind [IsOpen]
  all_goals
    obtain ⟨_, hact, _, hblo, rfl⟩ := happ
    obtain ⟨hbeg, hrun⟩ := requireWith_eq_ok hact
    refine ⟨hgra.snoc ⟨?_, ?_, ?_, ?_, ?_, ?_, ?_⟩, by simp [hbeg], ?_, ?_, ?_, ?_, ?_, ?_⟩ <;>
      grind [IsOpen]

end LmmApi.StreamPipeline
