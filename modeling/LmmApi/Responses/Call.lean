import LmmApi.Lib.GoText

/-!
# A call of the Responses API over a WebSocket

A call collects what its upstream delivers: token usage, output text, images and tool calls. A
terminal event ends it. `observeUpstreamMessage` is the update by one event, and
`responsesWSHasBillablePartialLocked` says whether there is something to bill when a call ends without
success.

Of a usage the token counts that decide about billing are kept, not their details.
-/

namespace LmmApi.Responses

open Go

/-- What the relay takes from its settings and libraries: `RetryTimes`, the limit of the output text
in bytes, `sha256` as a hexadecimal text, whether a tool has a price for the model, and the token
count of a text. -/
structure Env where
  retryTimes : ℕ
  responseByteLimit : ℕ
  sha256Hex : String → String
  toolPriced : String → Bool
  countTextToken : String → ℤ

/-! ## Events -/

/-- `dto.Usage`. -/
structure Usage where
  promptTokens : ℤ := 0
  completionTokens : ℤ := 0
  totalTokens : ℤ := 0
  inputTokens : ℤ := 0
  outputTokens : ℤ := 0
  deriving DecidableEq

inductive OutputType
  | webSearchCall
  | fileSearchCall
  | functionCall
  | toolUse
  | imageGenerationCall
  | other
  deriving DecidableEq

/-- `dto.ResponsesOutput`. -/
structure Output where
  type : OutputType
  id : String := ""
  status : String := ""
  result : String := ""
  callId : String := ""
  name : String := ""
  deriving DecidableEq

/-- `dto.OpenAIResponsesResponse`; the status is `none` unless it is a JSON string. -/
structure Response where
  status : Option String := none
  usage : Option Usage := none
  output : List Output := []
  deriving DecidableEq

inductive EventType
  | completed
  | done
  | incomplete
  | failed
  | cancelled
  | canceled
  | responseError
  | error
  | outputTextDelta
  | outputItemDone
  | other
  deriving DecidableEq

/-- `dto.ResponsesStreamResponse`. -/
structure StreamResponse where
  type : EventType
  response : Option Response := none
  delta : String := ""
  item : Option Output := none
  outputIndex : Option ℤ := none
  deriving DecidableEq

/-! ## What a call collects -/

/-- `ImageGenerationCallCounter`. -/
structure ImageCounter where
  seen : List String := []
  count : ℕ := 0
  deriving DecidableEq

/-- The part of a call that is under its mutex: usage, text, images and the calls of each tool. -/
structure CallData where
  usage : Usage := {}
  outputText : String := ""
  images : ImageCounter := {}
  tools : List (String × ℕ) := []
  estimatePromptTokens : ℤ := 0
  deriving DecidableEq

def buildInToolWebSearchPreview : String := "web_search_preview"
def buildInToolWebSearch : String := "web_search"
def buildInToolFileSearch : String := "file_search"
def buildInToolGoogleSearch : String := "google_search"
def buildInToolImageGeneration : String := "image_generation"

def reservedBillableToolNames : List String :=
  [buildInToolWebSearchPreview, buildInToolWebSearch, buildInToolFileSearch,
    buildInToolGoogleSearch, buildInToolImageGeneration]

/-- `dto.MaxImageN`. -/
def maxImageN : ℕ := 128

def isNonBillableResponsesStatus (status : Option String) : Bool :=
  match status with
  | none => false
  | some s => toLower (trimSpace s) ∈ ["failed", "cancelled", "canceled", "incomplete"]

def applyResponsesUsage (dst src : Usage) : Usage where
  promptTokens := if src.inputTokens ≠ 0 then src.inputTokens else dst.promptTokens
  inputTokens := if src.inputTokens ≠ 0 then src.inputTokens else dst.inputTokens
  completionTokens := if src.outputTokens ≠ 0 then src.outputTokens else dst.completionTokens
  outputTokens := if src.outputTokens ≠ 0 then src.outputTokens else dst.outputTokens
  totalTokens := if src.totalTokens ≠ 0 then src.totalTokens else dst.totalTokens

variable (tools : List (String × ℕ))

/-- Set the count of a tool, which is added if there is none. -/
def setTool (name : String) (count : ℕ) : List (String × ℕ) :=
  if tools.any fun t => t.1 = name then tools.map fun t => if t.1 = name then (name, count) else t
  else tools ++ [(name, count)]

def incrementBillableToolCall (name : String) : List (String × ℕ) :=
  setTool tools name (((tools.find? fun t => t.1 = name).elim 0 Prod.snd) + 1)

def resolveWebSearchToolName : String :=
  if tools.any fun t => t.1 = buildInToolWebSearchPreview then buildInToolWebSearchPreview
  else if tools.any fun t => t.1 = buildInToolWebSearch then buildInToolWebSearch
  else buildInToolWebSearchPreview

namespace ImageCounter

variable (env : Env)

/-- The names under which an image is known. -/
def aliases (item : Output) (outputIndex : Option ℤ) : List String :=
  (if item.id ≠ "" then ["id:" ++ item.id] else []) ++
  (if item.callId ≠ "" then ["call:" ++ item.callId] else []) ++
  (match outputIndex with
    | some n => if 0 ≤ n then ["index:" ++ toString n] else []
    | none => []) ++
  ["result:" ++ env.sha256Hex item.result]

/-- `ImageGenerationCallCounter.Observe`. -/
def observe (c : ImageCounter) (item : Output) (outputIndex : Option ℤ) : ImageCounter :=
  if item.type ≠ .imageGenerationCall ∨ trimSpace item.result = "" ∨
      toLower (trimSpace item.status) ∈
        ["failed", "cancelled", "canceled", "incomplete", "partial"] ∨
      (aliases env item outputIndex).any (fun a => a ∈ c.seen) then c
  else { seen := c.seen ++ aliases env item outputIndex, count := c.count + 1 }

end ImageCounter

/-- The longest beginning of a text with at most `n` bytes. -/
def takeBytes : ℕ → List Char → List Char
  | _, [] => []
  | n, c :: cs => if c.utf8Size ≤ n then c :: takeBytes (n - c.utf8Size) cs else []

namespace CallData

variable (env : Env)

variable (d : CallData)

/-- `responsesWSOutputTextBuffer.WriteString`. -/
def writeText (value : String) : CallData :=
  { d with
    outputText := d.outputText ++
      String.ofList (takeBytes (env.responseByteLimit - len d.outputText) value.toList) }

def countBillableToolCall (type : OutputType) (functionName : String) : CallData :=
  match type with
  | .webSearchCall =>
    { d with tools := incrementBillableToolCall d.tools (resolveWebSearchToolName d.tools) }
  | .fileSearchCall => { d with tools := incrementBillableToolCall d.tools buildInToolFileSearch }
  | .functionCall | .toolUse =>
    if functionName = "" ∨ functionName ∈ reservedBillableToolNames ∨
        env.toolPriced functionName = false then d
    else { d with tools := incrementBillableToolCall d.tools functionName }
  | _ => d

def applyTerminalResponseUsage (response : Option Response) : CallData :=
  match response with
  | none => d
  | some r =>
    { d with
      usage := r.usage.elim d.usage (applyResponsesUsage d.usage)
      images := r.output.zipIdx.foldl (fun c x => c.observe env x.1 (some x.2)) d.images }

/-- `responsesWSHasBillablePartialLocked`. -/
def hasBillablePartial : Bool :=
  d.usage.promptTokens ≠ 0 ∨ d.usage.completionTokens ≠ 0 ∨ d.usage.totalTokens ≠ 0 ∨
    d.usage.inputTokens ≠ 0 ∨ d.usage.outputTokens ≠ 0 ∨ d.outputText ≠ "" ∨ d.images.count ≠ 0 ∨
    d.tools.any fun t => 0 < t.2

/-- A finished item of the output. -/
def countItem (item : Output) (outputIndex : Option ℤ) : CallData :=
  match item.type with
  | .imageGenerationCall => { d with images := d.images.observe env item outputIndex }
  | .webSearchCall | .fileSearchCall => d.countBillableToolCall env item.type ""
  | .functionCall | .toolUse => d.countBillableToolCall env item.type item.name
  | .other => d

/-- The update of `observeUpstreamMessage`, and with which success the event ends the call. -/
def observe (m : StreamResponse) : CallData × Option Bool :=
  match m.type with
  | .completed | .done =>
    if m.response.any fun r => isNonBillableResponsesStatus r.status then
      ({ d with images := {} }, some false)
    else (d.applyTerminalResponseUsage env m.response, some true)
  | .incomplete | .failed | .cancelled | .canceled | .responseError | .error =>
    let d := d.applyTerminalResponseUsage env m.response
    (d, some d.hasBillablePartial)
  | .outputTextDelta => (d.writeText env m.delta, none)
  | .outputItemDone =>
    (match m.item with
      | some item => d.countItem env item m.outputIndex
      | none => d, none)
  | .other => (d, none)

/-- `images.Commit` and `finalizeResponsesWSUsage`. -/
def commit : CallData :=
  let tools := setTool d.tools buildInToolImageGeneration (min d.images.count maxImageN)
  let completion := if d.usage.completionTokens = 0 ∧ d.outputText ≠ "" then
    env.countTextToken d.outputText else d.usage.completionTokens
  let prompt := if d.usage.promptTokens = 0 ∧ completion ≠ 0 then d.estimatePromptTokens
    else d.usage.promptTokens
  { d with
    tools
    usage := { d.usage with
      completionTokens := completion
      promptTokens := prompt
      totalTokens := if d.usage.totalTokens = 0 then prompt + completion
        else d.usage.totalTokens } }

end CallData

end LmmApi.Responses
