import LmmApi.StreamPipeline.State

/-!
# The typed stream session

A session passes each frame to an adaptor and delivers what it answers as one batch, after the
checks of the limits and of the canonical events. `session_conforms` is about the answers of a
session to any calls, for any adaptor.
-/

namespace LmmApi.StreamPipeline

open Attribution Guarded

/-! ## Items and their sizes -/

structure SseFrame where
  data : String
  raw : List UInt8

inductive StreamAdaptorItem
  | targetFramed (event : CanonicalStreamEvent) (bytes : List UInt8)
  | canonical (event : CanonicalStreamEvent)
  | loss (code : String)

def StreamAdaptorItem.event? : StreamAdaptorItem → Option CanonicalStreamEvent
  | targetFramed event _ | canonical event => some event
  | loss _ => none

/-- A delivered batch. The items are kept as the adaptor returned them; the program drops the event
of a framed item, whose bytes it delivers. -/
structure TypedStreamBatch where
  items : List StreamAdaptorItem
  aggregateBytes : ℕ

/-- `map_setup_failure` keeps the name and the numbers of a failure, so that both kinds of errors
carry the same type here. -/
inductive StreamProcessError
  | setup (failure : TypedStreamFailure)
  | stream (failure : TypedStreamFailure)

/-- `usize::checked_add`. -/
def checkedAdd (a b : ℕ) : Option ℕ := if a + b < 2 ^ 64 then some (a + b) else none

def usizeMax : ℕ := 2 ^ 64 - 1

def canonicalEventBytes (event : CanonicalStreamEvent) : Option ℕ :=
  let lengths : List ℕ := match event with
    | .responseStart id model => [id.utf8ByteSize, model.utf8ByteSize]
    | .textDelta _ delta | .reasoningDelta _ delta | .toolArgumentsDelta _ delta =>
      [delta.utf8ByteSize]
    | .toolCallStart _ id name => [id.utf8ByteSize, name.utf8ByteSize]
    | .responseEnd _ _ model => (model.map String.utf8ByteSize).toList
    | .error code message => (code.map String.utf8ByteSize).toList ++ [message.utf8ByteSize]
    | .contentStart _ _ | .contentEnd _ | .cancelled => []
  lengths.foldlM checkedAdd 0

def StreamAdaptorItem.bytes? : StreamAdaptorItem → Option ℕ
  | targetFramed event bytes => canonicalEventBytes event >>= checkedAdd bytes.length
  | canonical event => canonicalEventBytes event
  | loss _ => some 0

/-- The accounting loop of `finish_adaptor_output`. -/
def aggregate (limit : ℕ) : ℕ → List StreamAdaptorItem → Except TypedStreamFailure ℕ
  | total, [] => .ok total
  | total, item :: items => do
    let bytes ← orFail item.bytes? (.outputBytesExceeded limit usizeMax)
    let value ← orFail (checkedAdd total bytes) (.outputBytesExceeded limit usizeMax)
    require (.outputBytesExceeded limit value) (value ≤ limit)
    aggregate limit value items

theorem aggregate_le {limit total bytes : ℕ} {items : List StreamAdaptorItem} (h : total ≤ limit)
    (hok : aggregate limit total items = .ok bytes) : bytes ≤ limit := by
  induction items generalizing total with
  | nil => exact Except.ok.inj hok ▸ h
  | cons _ _ ih =>
    simp only [aggregate, bind_eq_ok, require_eq_ok] at hok
    obtain ⟨_, -, _, -, _, hle, hok⟩ := hok
    exact ih hle hok

/-- The loop that applies the events of a batch, up to the first failure. -/
def applyItems : List StreamAdaptorItem → TypedStreamState →
    TypedStreamState × Option TypedStreamFailure
  | [], state => (state, none)
  | item :: items, state =>
    match item.event? with
    | none => applyItems items state
    | some event =>
      match state.apply event with
      | .ok state => applyItems items state
      | .error failure => (state, some failure)

theorem Reflects.applyItems {events : List CanonicalStreamEvent} {s s' : TypedStreamState}
    {items : List StreamAdaptorItem} (h : Reflects events s)
    (happ : applyItems items s = (s', none)) :
    Reflects (events ++ items.filterMap (·.event?)) s' := by
  induction items generalizing events s with
  | nil =>
    cases happ
    simpa using h
  | cons _ _ ih =>
    rw [StreamPipeline.applyItems] at happ
    split at happ
    case h_1 hev => simpa [hev] using ih h happ
    case h_2 _ hev =>
      split at happ
      case h_1 hok => simpa [hev] using ih (h.apply hok) happ
      case h_2 => simp at happ

/-! ## The session -/

/-- The limits of a session. -/
structure StreamSessionSpec where
  maxFrameBytes : ℕ
  maxOutputItems : ℕ
  maxOutputBytes : ℕ

/-- An adaptor with a state of its own. -/
structure StreamAdaptorSession (α : Type*) where
  processFrame : SseFrame → α → Except TypedStreamFailure (List StreamAdaptorItem) × α
  cancel : α → Except TypedStreamFailure Unit × α

/-- An open session that is not raw: it has a typed state and an adaptor. -/
structure StreamSession (α : Type*) where
  state : TypedStreamState := {}
  adaptor : α
  outputStarted : Bool := false
  cancelled : Bool := false
  poisoned : Bool := false

/-- What a call returns: an error, the delivered batch, or nothing for a cancellation. -/
abbrev Answer : Type := Except StreamProcessError (Option TypedStreamBatch)

def validateTerminalPostlude (state : TypedStreamState) (items : List StreamAdaptorItem) :
    Except TypedStreamFailure Unit :=
  match items.map StreamAdaptorItem.event? with
  | [some (.error _ _)] => require .duplicateTerminal ¬state.terminalErrorSeen
  | [some .cancelled] => require .duplicateTerminal ¬state.terminalCancelledSeen
  | [some (.responseEnd _ _ _)] => .error .duplicateTerminal
  | _ => .error .afterTerminal

namespace StreamSession

variable {α : Type*} (spec : StreamSessionSpec) (adaptor : StreamAdaptorSession α)

def stageFailure (failure : TypedStreamFailure) (s : StreamSession α) : StreamProcessError :=
  if s.outputStarted then .stream failure else .setup failure

def poison (failure : TypedStreamFailure) (s : StreamSession α) : Answer × StreamSession α :=
  (.error (s.stageFailure failure), { s with poisoned := true })

def finishAdaptorOutput (items : List StreamAdaptorItem) (s : StreamSession α) :
    Answer × StreamSession α :=
  if spec.maxOutputItems < items.length then
    s.poison (.outputItemsExceeded spec.maxOutputItems items.length)
  else match aggregate spec.maxOutputBytes 0 items with
    | .error failure => s.poison failure
    | .ok bytes =>
      match applyItems items s.state with
      | (state, some failure) => { s with state := state }.poison failure
      | (state, none) =>
        (.ok (some ⟨items, bytes⟩),
          { s with state := state, outputStarted := s.outputStarted || !items.isEmpty })

def processFrame (frame : SseFrame) (s : StreamSession α) : Answer × StreamSession α :=
  if s.poisoned then (.error (s.stageFailure .poisoned), s)
  else if s.cancelled then (.error (s.stageFailure .cancelled), s)
  else if spec.maxFrameBytes < frame.raw.length then
    s.poison (.frameTooLarge spec.maxFrameBytes frame.raw.length)
  else
    let (output, a) := adaptor.processFrame frame s.adaptor
    let s := { s with adaptor := a }
    match output with
    | .error failure => s.poison failure
    | .ok items =>
      match if s.state.terminal then validateTerminalPostlude s.state items else .ok () with
      | .error failure => s.poison failure
      | .ok () => s.finishAdaptorOutput spec items

def cancel (s : StreamSession α) : Answer × StreamSession α :=
  if s.poisoned then (.error (s.stageFailure .poisoned), s)
  else if s.cancelled then (.error (s.stageFailure .cancelled), s)
  else
    let (output, a) := adaptor.cancel s.adaptor
    let s := { s with adaptor := a }
    match output with
    | .error failure => s.poison failure
    | .ok () =>
      match s.state.cancel with
      | .error failure => s.poison failure
      | .ok state => (.ok none, { s with state := state, cancelled := true })

/-- A call of the host: `none` cancels. -/
def call : Option SseFrame → StreamSession α → Answer × StreamSession α
  | some frame, s => s.processFrame spec adaptor frame
  | none, s => s.cancel adaptor

/-- The answers to a list of calls, in order. -/
def answers (calls : List (Option SseFrame)) (s : StreamSession α) : List Answer :=
  observed (fun c s => (s.call spec adaptor c).2) (fun c s => [(s.call spec adaptor c).1]) s calls

/-! ## What the answers are -/

/-- What a call does: it fails and ends the session, or finds it ended; it cancels; or it delivers a
batch within the limits, whose events the state accepts. -/
inductive Does (s : StreamSession α) : Answer × StreamSession α → Prop
  | fails (failure : TypedStreamFailure) (s' : StreamSession α)
      (hended : s'.poisoned || s'.cancelled) (hstarted : s'.outputStarted = s.outputStarted) :
      Does s (.error (s.stageFailure failure), s')
  | cancels (s' : StreamSession α) (hlive : ¬(s.poisoned || s.cancelled)) (hended : s'.cancelled)
      (hstarted : s'.outputStarted = s.outputStarted) : Does s (.ok none, s')
  | delivers (items : List StreamAdaptorItem) (bytes : ℕ) (s' : StreamSession α)
      (hlive : ¬(s.poisoned || s.cancelled)) (hlength : items.length ≤ spec.maxOutputItems)
      (hbytes : aggregate spec.maxOutputBytes 0 items = .ok bytes)
      (hstate : applyItems items s.state = (s'.state, none))
      (hstarted : s'.outputStarted = (s.outputStarted || !items.isEmpty)) :
      Does s (.ok (some ⟨items, bytes⟩), s')

variable {spec adaptor} {s : StreamSession α}

theorem does_poison (failure : TypedStreamFailure) (s' : StreamSession α)
    (hsta : s'.outputStarted = s.outputStarted) : s.Does spec (s'.poison failure) := by
  have h : s'.stageFailure failure = s.stageFailure failure := by simp [stageFailure, hsta]
  rw [poison, h]
  exact .fails failure _ rfl hsta

theorem does_finishAdaptorOutput {s' : StreamSession α} {items : List StreamAdaptorItem}
    (hlv : ¬(s.poisoned || s.cancelled)) (hsta : s'.outputStarted = s.outputStarted)
    (hstat : s'.state = s.state) : s.Does spec (s'.finishAdaptorOutput spec items) := by
  unfold finishAdaptorOutput
  split
  · exact does_poison _ _ hsta
  · rename_i hlen
    split
    · exact does_poison _ _ hsta
    · rename_i hbyt
      split
      · exact does_poison _ _ hsta
      · rename_i hok
        rw [hstat] at hok
        exact .delivers _ _ _ hlv (not_lt.1 hlen) hbyt hok (by rw [hsta])

variable (adaptor) in
theorem does_call (c : Option SseFrame) : s.Does spec (s.call spec adaptor c) := by
  by_cases hlv : s.poisoned || s.cancelled
  case pos =>
    -- the session has ended, and both calls look at that first
    cases hpoi : s.poisoned <;> cases c <;>
      simp_all only [call, processFrame, cancel, Bool.false_or, if_true, if_false,
        Bool.false_eq_true]
    all_goals exact .fails _ _ (by simp_all) rfl
  case neg =>
    obtain ⟨hpoi, hcan⟩ := not_or.1 (mt Bool.or_eq_true_iff.2 hlv)
    cases c <;> simp only [call, processFrame, cancel, if_neg hpoi, if_neg hcan]
    case none =>
      split
      · exact does_poison _ _ rfl
      · split
        · exact does_poison _ _ rfl
        · exact .cancels _ hlv rfl rfl
    case some =>
      split
      · exact does_poison _ _ rfl
      · split
        · exact does_poison _ _ rfl
        · split
          · exact does_poison _ _ rfl
          · exact does_finishAdaptorOutput hlv rfl rfl

end StreamSession

/-- The canonical events of the delivered batches. -/
def delivered (answers : List Answer) : List CanonicalStreamEvent :=
  answers.flatMap fun
    | .ok (some batch) => batch.items.filterMap (·.event?)
    | _ => []

/-- The answer may follow the answers before it: a batch is within the limits; after an error or a
cancellation there are only errors; and an error is a setup error exactly when no batch with an item
came before it. -/
structure Follows (spec : StreamSessionSpec) (before : List Answer) (answer : Answer) : Prop where
  bounded : ∀ batch, answer = .ok (some batch) → batch.items.length ≤ spec.maxOutputItems ∧
    aggregate spec.maxOutputBytes 0 batch.items = .ok batch.aggregateBytes ∧
    batch.aggregateBytes ≤ spec.maxOutputBytes
  ended : .ok none ∈ before ∨ (∃ e, .error e ∈ before) → ∃ e, answer = .error e
  setup : ∀ e, answer = .error e →
    ((∃ failure, e = .setup failure) ↔ ∀ batch, .ok (some batch) ∈ before → batch.items = [])

/-- What a session knows of its answers. -/
structure Knows (spec : StreamSessionSpec) {α : Type*} (answers : List Answer)
    (s : StreamSession α) : Prop where
  grammatical : Grammatical (delivered answers)
  follows : Stepwise (Follows spec) answers
  live : ¬(s.poisoned || s.cancelled) → Reflects (delivered answers) s.state ∧
    .ok none ∉ answers ∧ ∀ e, .error e ∉ answers
  started : s.outputStarted = false ↔ ∀ batch, .ok (some batch) ∈ answers → batch.items = []

theorem Knows.call {spec : StreamSessionSpec} {α : Type*} {answers : List Answer}
    {s s' : StreamSession α} {answer : Answer} (h : Knows spec answers s)
    (hd : s.Does spec (answer, s')) : Knows spec (answers ++ [answer]) s' := by
  obtain ⟨hgra, hfol, hlv, hsta⟩ := h
  cases hd with
  | fails _ _ hend hsta' =>
    refine ⟨by simpa [delivered] using hgra, hfol.snoc ⟨nofun, fun _ => ⟨_, rfl⟩, ?_⟩,
      fun h => absurd hend h, by simpa [hsta'] using hsta⟩
    rintro _ ⟨⟩
    rw [← hsta]
    cases h : s.outputStarted <;> simp [StreamSession.stageFailure, h]
  | cancels _ hrun hend hsta' =>
    obtain ⟨-, hn, herr⟩ := hlv hrun
    refine ⟨by simpa [delivered] using hgra, hfol.snoc ⟨nofun, ?_, nofun⟩,
      fun h => absurd (by simp [hend]) h, by simpa [hsta'] using hsta⟩
    rintro (h | ⟨e, h⟩)
    · exact absurd h hn
    · exact absurd h (herr e)
  | delivers items bytes _ hrun hlen hbyt hstat hsta' =>
    obtain ⟨href, hn, herr⟩ := hlv hrun
    have heve : delivered (answers ++ [.ok (some ⟨items, bytes⟩)]) =
        delivered answers ++ items.filterMap (·.event?) := by simp [delivered]
    have href' := href.applyItems hstat
    rw [← heve] at href'
    refine ⟨href'.grammatical, hfol.snoc ⟨?_, ?_, nofun⟩, fun _ => ⟨href', ?_, ?_⟩, ?_⟩
    · rintro _ ⟨⟩
      exact ⟨hlen, hbyt, aggregate_le (Nat.zero_le _) hbyt⟩
    · rintro (h | ⟨e, h⟩)
      · exact absurd h hn
      · exact absurd h (herr e)
    · simpa using hn
    · simpa using herr
    · rw [hsta', Bool.or_eq_false_iff, hsta]
      simp [or_imp, forall_and]

/-- **Whatever the adaptor answers, a session delivers a grammatical stream**: the events of its
batches are a beginning of a stream, and every answer follows those before it. -/
theorem session_conforms (spec : StreamSessionSpec) {α : Type*} (adaptor : StreamAdaptorSession α)
    (a : α) (calls : List (Option SseFrame)) :
    Grammatical (delivered (StreamSession.answers spec adaptor calls { adaptor := a })) ∧
      Stepwise (Follows spec) (StreamSession.answers spec adaptor calls { adaptor := a }) := by
  have hnew : Knows spec [] ({ adaptor := a } : StreamSession α) :=
    ⟨.nil _, .nil _, fun _ => ⟨reflects_new, nofun, nofun⟩, by simp⟩
  have hany : Along (fun c (s : StreamSession α) => (s.call spec adaptor c).2) (fun _ _ => True)
      { adaptor := a } calls := along_of_forall (fun _ _ => trivial) _ calls
  have hknows := observed_rule (fun answers s c _ (h : Knows spec answers s) =>
    h.call (StreamSession.does_call adaptor c)) hnew hany
  exact ⟨hknows.grammatical, hknows.follows⟩

end LmmApi.StreamPipeline
