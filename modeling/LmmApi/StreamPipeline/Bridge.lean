import LmmApi.Lib.GoText
import LmmApi.StreamPipeline.Session

/-!
# The provider bridge

The bridge maps the normalized events of a provider to canonical ones, with block indices that it
allocates when they are needed. It never sends a `ContentStart`, so that the state machine of the
session accepts its events only if none of them belongs to a block.
-/

namespace LmmApi.StreamPipeline

open Guarded List TypedStreamState

/-! ## Mapping provider events -/

inductive EventStatus
  | ok | error | cancelled

structure ModelUsage where
  inputTokens : ℕ
  outputTokens : ℕ
  cachedTokens : Option ℕ
  reasoningTokens : Option ℕ

/-- The normalized events of the protocol library. A tool call carries its arguments as serialized,
if that succeeds, and a message the text of its content. -/
inductive ModelEvent
  | start (run model : String)
  | textDelta (text : String)
  | reasoningDelta (text : String)
  | toolCall (id name : String) (arguments : Option String)
  | message (text : String)
  | usage (usage : ModelUsage)
  | error (code message : String)
  | done (status : EventStatus)

structure StreamMapState where
  runId : Option String := none
  started : Bool := false
  nextIndex : ℕ := 0
  textBlock : Option ℕ := none
  reasoningBlock : Option ℕ := none
  pendingUsage : Option TokenUsage := none

namespace StreamMapState

def nextBlockIndex (m : StreamMapState) : ℕ × StreamMapState :=
  (m.nextIndex, { m with nextIndex := m.nextIndex + 1 })

def ensureTextBlock (m : StreamMapState) : ℕ × StreamMapState :=
  match m.textBlock with
  | some index => (index, m)
  | none =>
    let (index, m) := m.nextBlockIndex
    (index, { m with textBlock := some index })

def ensureReasoningBlock (m : StreamMapState) : ℕ × StreamMapState :=
  match m.reasoningBlock with
  | some index => (index, m)
  | none =>
    let (index, m) := m.nextBlockIndex
    (index, { m with reasoningBlock := some index })

end StreamMapState

/-- The usage that a session is told; the sum of the tokens saturates. -/
def ModelUsage.tokenUsage (u : ModelUsage) : TokenUsage where
  inputTokens := u.inputTokens
  outputTokens := u.outputTokens
  totalTokens := min (u.inputTokens + u.outputTokens) usizeMax
  cachedInputTokens := u.cachedTokens.getD 0
  reasoningTokens := u.reasoningTokens.getD 0

def EventStatus.finishReason : EventStatus → FinishReason
  | ok => .stop
  | error => .error
  | cancelled => .cancelled

def modelEventToCanonical (m : StreamMapState) :
    ModelEvent → List CanonicalStreamEvent × StreamMapState
  | .start run model => ([.responseStart run model], { m with runId := some run, started := true })
  | .textDelta text =>
    let (index, m) := m.ensureTextBlock
    ([.textDelta index text], m)
  | .reasoningDelta text =>
    let (index, m) := m.ensureReasoningBlock
    ([.reasoningDelta index text], m)
  | .toolCall id name arguments =>
    let (index, m) := m.nextBlockIndex
    ([.toolCallStart index id name, .toolArgumentsDelta index (arguments.getD "\x7b\x7d"),
      .contentEnd index], m)
  | .message text =>
    if text.isEmpty then ([], m)
    else
      let (index, m) := m.ensureTextBlock
      ([.textDelta index text], m)
  | .usage usage => ([], { m with pendingUsage := some usage.tokenUsage })
  | .error code message => ([.error (some code) message], m)
  | .done status =>
    ([.responseEnd status.finishReason m.pendingUsage none], { m with pendingUsage := none })

/-- The canonical events for a list of provider events, mapped one by one. -/
def mapEvents : StreamMapState → List ModelEvent → List CanonicalStreamEvent × StreamMapState
  | m, [] => ([], m)
  | m, event :: events =>
    let (first, m) := modelEventToCanonical m event
    let (rest, m) := mapEvents m events
    (first ++ rest, m)

/-! ## Acceptance -/

/-- An event between the start and the end of a response. -/
def ModelEvent.isBody : ModelEvent → Bool
  | textDelta _ | reasoningDelta _ | toolCall _ _ _ | message _ | usage _ => true
  | _ => false

/-- An event that needs no block. -/
def ModelEvent.needsNoBlock : ModelEvent → Bool
  | message text => text.isEmpty
  | usage _ => true
  | _ => false

/-- The usage after a list of events, with the usage before it as the default. -/
def lastUsage (default : Option TokenUsage) (events : List ModelEvent) : Option TokenUsage :=
  events.foldl (fun last event => match event with
    | .usage usage => some usage.tokenUsage
    | _ => last) default

def modelText (events : List ModelEvent) : String :=
  String.join (events.map fun
    | .textDelta text | .message text => text
    | _ => "")

def deltaText (events : List CanonicalStreamEvent) : String :=
  String.join (events.map fun
    | .textDelta _ delta => delta
    | _ => "")

/-- A fresh state accepts the canonical events, and is then terminal without open blocks, with the
last usage; the text deltas are the texts of the provider events. -/
def Accepted (events : List ModelEvent) : Prop :=
  ∃ s : TypedStreamState,
    (mapEvents {} events).1.foldlM TypedStreamState.apply {} = .ok s ∧ s.terminal = true ∧
      s.openBlocks = ∅ ∧ s.usage = lastUsage none events ∧
      deltaText (mapEvents {} events).1 = modelText events

variable {body : List ModelEvent} {s s' : TypedStreamState}

/-- Events that need no block are mapped to nothing, but for the usage. -/
theorem mapEvents_of_needsNoBlock (rest : List ModelEvent)
    (m : StreamMapState) (h : ∀ e ∈ body, e.needsNoBlock = true) : mapEvents m (body ++ rest) =
      mapEvents { m with pendingUsage := lastUsage m.pendingUsage body } rest := by
  induction body generalizing m with
  | nil => rfl
  | cons e body ih =>
    have hbody := fun e' he' => h e' (mem_cons_of_mem e he')
    have he := h e mem_cons_self
    cases e <;> simp_all [ModelEvent.needsNoBlock, mapEvents, modelEventToCanonical, lastUsage]

theorem modelText_of_needsNoBlock
    (h : ∀ e ∈ body, e.needsNoBlock = true) : modelText body = "" := by
  induction body with
  | nil => rfl
  | cons e body ih =>
    have he := h e mem_cons_self
    have hbody := ih fun e' he' => h e' (mem_cons_of_mem e he')
    cases e <;> simp_all [ModelEvent.needsNoBlock, modelText, String.join]

theorem apply_ne_ok {e : CanonicalStreamEvent} {i : ℕ} (h : e.inside? = some i) (hopen : s.openBlocks = ∅) : s.apply e ≠ .ok s' := by
  intro hok
  cases e <;> simp only [CanonicalStreamEvent.inside?, reduceCtorEq] at h
  all_goals
    simp only [apply, blockDelta, blockEnd, bind_eq_ok, require_eq_ok] at hok
    obtain ⟨_, -, _, hmem, -⟩ := hok
    simp [hopen] at hmem

/-- The first event of a block is refused. -/
theorem foldlM_apply_ne_ok {e : ModelEvent} (hbody : e.isBody = true)
    (h : e.needsNoBlock = false) (m : StreamMapState) (rest : List ModelEvent) (hopen : s.openBlocks = ∅) :
    (mapEvents m (e :: rest)).1.foldlM apply s ≠ .ok s' := by
  obtain ⟨c, cs, hc, i, hi⟩ : ∃ c cs, (mapEvents m (e :: rest)).1 = c :: cs ∧
      ∃ i, c.inside? = some i := by
    cases e <;> simp_all [ModelEvent.isBody, ModelEvent.needsNoBlock, mapEvents,
      modelEventToCanonical]
  rw [hc, foldlM_cons]
  intro hok
  obtain ⟨_, happly, -⟩ := bind_eq_ok.1 hok
  exact apply_ne_ok hi hopen happly

theorem needsNoBlock_of_foldlM {rest : List ModelEvent}
    (hbody : ∀ e ∈ body, e.isBody = true) {m : StreamMapState} (hopen : s.openBlocks = ∅)
    (h : (mapEvents m (body ++ rest)).1.foldlM apply s = .ok s') :
    ∀ e ∈ body, e.needsNoBlock = true := by
  induction body generalizing m with
  | nil => nofun
  | cons e body ih =>
    have he : e.needsNoBlock = true := by
      by_contra hblock
      exact foldlM_apply_ne_ok (hbody e mem_cons_self) (Bool.eq_false_of_not_eq_true hblock) m
        (body ++ rest) hopen h
    have hskip := mapEvents_of_needsNoBlock (body ++ rest) m (forall_mem_singleton.2 he)
    rw [cons_append, ← singleton_append, hskip] at h
    exact forall_mem_cons.2 ⟨he, ih (forall_mem_cons.1 hbody).2 h⟩

/-- **The session accepts the events of the bridge exactly when none of them needs a block.** -/
theorem accepted_iff_needsNoBlock (run model : String) (body : List ModelEvent)
    (status : EventStatus) (hbody : ∀ e ∈ body, e.isBody = true) :
    Accepted (.start run model :: (body ++ [.done status])) ↔
      ∀ e ∈ body, e.needsNoBlock = true := by
  constructor
  · rintro ⟨s, hok, -⟩
    simp only [mapEvents, modelEventToCanonical, singleton_append, foldlM_cons] at hok
    obtain ⟨s₁, hstart, hok⟩ := bind_eq_ok.1 hok
    obtain rfl : { started := true } = s₁ := Except.ok.inj hstart
    exact needsNoBlock_of_foldlM hbody rfl hok
  · intro h
    have hmap : (mapEvents {} (.start run model :: (body ++ [.done status]))).1 =
        [.responseStart run model, .responseEnd status.finishReason (lastUsage none body) none] := by
      rw [mapEvents]
      simp [modelEventToCanonical, mapEvents_of_needsNoBlock _ _ h, mapEvents]
    refine ⟨_, by rw [hmap]; rfl, rfl, rfl, ?_, ?_⟩
    · simp [lastUsage]
    · have htext := modelText_of_needsNoBlock h
      rw [hmap]
      simp_all [modelText, deltaText, String.join]

/-- A response that only reports its usage is accepted. -/
theorem usage_accepted :
    Accepted (.start "run" "model" :: ([.usage ⟨3, 4, none, none⟩] ++ [.done .ok])) :=
  (accepted_iff_needsNoBlock "run" "model" [.usage ⟨3, 4, none, none⟩] .ok (by decide)).2 (by decide)

/-- A response with a text is refused at its first delta. -/
theorem text_refused : ¬Accepted (.start "run" "model" :: ([.textDelta "hi"] ++ [.done .ok])) := by
  rintro ⟨s, hok, -⟩
  cases hok

/-! ## Frames without events -/

/-- `str::trim`. It removes the characters with the Unicode property `White_Space`, as the function
of Go does. -/
def strTrim (s : String) : String := Go.trimSpace s

/-- `CortexFsStreamSession`. The library decodes the data of a frame, or fails. -/
def cortexFsStreamSession (decode : String → Option (List ModelEvent)) :
    StreamAdaptorSession StreamMapState where
  processFrame frame m :=
    if strTrim frame.data = "[DONE]" then (.ok [], m)
    else if frame.data = "" then (.ok [], m)
    else match decode frame.data with
      | none => (.error .unknownEvent, m)
      | some events =>
        let (canonical, m) := mapEvents m events
        (.ok (canonical.map .canonical), m)
  cancel m := (.ok (), m)

/-- The answer is an empty batch, and the typed state and the poisoned flag are as before. -/
def Neutral {α : Type*} (s : StreamSession α) (out : Answer × StreamSession α) : Prop :=
  out.1 = .ok (some ⟨[], 0⟩) ∧ out.2.state = s.state ∧ out.2.poisoned = s.poisoned

/-- **An end marker or a keep-alive is neutral exactly before the end of the stream**; after the end,
it is an error and poisons the session. -/
theorem marker_neutral_iff (spec : StreamSessionSpec) (decode : String → Option (List ModelEvent))
    (s : StreamSession StreamMapState) (frame : SseFrame) (hpoisoned : s.poisoned = false)
    (hcancelled : s.cancelled = false) (hsize : frame.raw.length ≤ spec.maxFrameBytes)
    (hdata : frame.data = "" ∨ frame.data = "[DONE]") :
    let out := s.processFrame spec (cortexFsStreamSession decode) frame
    (Neutral s out ↔ s.state.terminal = false) ∧ (s.state.terminal = true →
      out.1 = .error (s.stageFailure .afterTerminal) ∧ out.2.poisoned = true) := by
  have hnone : (cortexFsStreamSession decode).processFrame frame s.adaptor = (.ok [], s.adaptor) := by
    rcases hdata with h | h
    · simp [cortexFsStreamSession, h]
    · have htrim : strTrim "[DONE]" = "[DONE]" := by decide
      simp [cortexFsStreamSession, h, htrim]
  simp only [StreamSession.processFrame, hpoisoned, hcancelled, if_neg (not_lt.2 hsize), hnone]
  cases hterminal : s.state.terminal <;>
    simp [validateTerminalPostlude, StreamSession.finishAdaptorOutput, aggregate, applyItems,
      StreamSession.poison, StreamSession.stageFailure, Neutral, hpoisoned]

/-- A session that has delivered the start of a response. -/
def startedSession : StreamSession StreamMapState :=
  (StreamSession.processFrame ⟨20, 10, 10⟩
    (cortexFsStreamSession fun _ => some [.start "run" "model", .usage ⟨3, 4, none, none⟩])
    ⟨"response", "data: response\n\n".toUTF8.toList⟩ { adaptor := {} }).2

/-- An end marker between two events of a response. -/
theorem marker_neutral_started : startedSession.state.started ∧ startedSession.outputStarted ∧
    Neutral startedSession (startedSession.processFrame ⟨20, 10, 10⟩
      (cortexFsStreamSession fun _ => none) ⟨"[DONE]", "data: [DONE]\n\n".toUTF8.toList⟩) := by
  refine ⟨by decide +kernel, by decide +kernel, (marker_neutral_iff ⟨20, 10, 10⟩ _ startedSession
    ⟨"[DONE]", "data: [DONE]\n\n".toUTF8.toList⟩ ?_ ?_ ?_ (.inr rfl)).1.2 ?_⟩ <;> decide +kernel

/-- After the end of a response, the end marker of the provider is an error and poisons the
session. -/
theorem done_marker_refused : StreamSession.answers ⟨10, 10, 100⟩
      (cortexFsStreamSession fun _ => some [.start "run" "model", .done .ok])
      [some ⟨"response", []⟩, some ⟨"[DONE]", []⟩] { adaptor := {} } =
    [.ok (some ⟨[.canonical (.responseStart "run" "model"),
        .canonical (.responseEnd .stop none none)], 8⟩),
      .error (.stream .afterTerminal)] :=
  rfl

end LmmApi.StreamPipeline
