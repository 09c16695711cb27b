import LmmApi.Lib.Threads
import LmmApi.Responses.Call

/-!
# Sessions of the Responses API over a WebSocket

A session relays between a client and an upstream connection. Its main loop reads the events of the
client; `response.create` prepares a call, which takes its price from the wallet, makes it the
current call and writes it to the upstream, over a new connection if there is none. A reader for
each connection applies what the upstream delivers to the current call. Both, and the functions that
close a session from outside, end calls through `finishCall`, which either refunds the call or posts
its consumption.

An instruction is what the code does under one lock, or between two: the session is shared by all
threads, and `current` and `finishing` are read and written in separate critical sections. What the
environment decides is the answer to an instruction: the next event of the client, the next message
of the upstream, the outcome of a write, of a dial or of a preparation. A read may fail or return
something at any time, also after its connection was closed, so closing the client connection has no
instruction of its own.
-/

namespace LmmApi.Responses

open Threads

/-- `responsesWSCallState`, with the connection its request was written to. -/
structure Call where
  data : CallData := {}
  finishing : Bool := false
  written : Option ℕ := none
  deriving DecidableEq

/-- What a session does to the outside. -/
inductive Billing
  | refund (c : ℕ)
  | consume (c : ℕ) (data : CallData)
  | commitRate (success : Bool)

/-- The progress of `closeWithCode`, which runs once. -/
inductive Closing
  | idle
  | running
  | done
  deriving DecidableEq

/-- `responsesWSSession`. Calls and connections are numbered in the order in which they are
prepared and dialed. -/
structure Session where
  calls : ℕ → Call := fun _ => {}
  prepared : ℕ := 0
  current : Option ℕ := none
  target : Option ℕ := none
  connections : ℕ := 0
  closing : Closing := .idle
  lockedModel : String := ""
  log : List Billing := []

namespace Session

def updateCall (s : Session) (c : ℕ) (f : Call → Call) : Session :=
  { s with calls := Function.update s.calls c (f (s.calls c)) }

def bill (s : Session) (b : Billing) : Session := { s with log := s.log ++ [b] }

/-- A call that `prepareCall` returns. -/
def prepare (s : Session) (data : CallData) : Session :=
  { s with calls := Function.update s.calls s.prepared { data }, prepared := s.prepared + 1 }

end Session

/-- The threads of a session. -/
inductive Tag
  | main
  | reader (connection : ℕ)
  | closer
  deriving DecidableEq

/-- An event of the client. -/
inductive ClientEvent
  | malformed
  | create (model : String)
  | cancel
  | other

/-- What the environment answers to an instruction. -/
inductive Answer
  | ok
  | fail
  /-- A failure after which the next channel is tried. -/
  | retry
  | prepared (data : CallData)
  | client (e : ClientEvent)
  /-- A message of the upstream, `none` if it is not valid JSON. -/
  | message (m : Option StreamResponse)

/-- The instructions of the main loop, of the readers and of `closeWithCode`. In the loop of
`connectAndSendFirst`, `n` channels are left to try. -/
inductive Instr
  | readClient
  | handleCreate (model : String)
  | checkTarget (model : String)
  | connect (model : String) (n : ℕ)
  | dial (model : String) (n c : ℕ)
  | setTarget (model : String) (n c k : ℕ)
  | reserveFirst (model : String) (n c : ℕ)
  | writeFirst (model : String) (n c : ℕ)
  | retryConnect (model : String) (n : ℕ)
  | register
  | startReader
  | prepareExisting
  | reserveExisting (c : ℕ)
  | writeExisting (c : ℕ)
  | handleCancel
  | cancelTarget
  | writeCancel
  | control
  | writeControl
  | closeWithCode
  | closed
  | failCurrent
  | beginFinish (c : ℕ) (success : Bool)
  | checkPartial (c : ℕ) (success : Bool)
  | commitUsage (c : ℕ)
  | consume (c : ℕ)
  | refund (c : ℕ)
  | commitRate (success : Bool)
  | completeFinish (c : ℕ)
  | closeTarget
  | read
  | observe (m : Option StreamResponse)
  | apply (c : ℕ) (m : StreamResponse)
  | writeClient
  deriving DecidableEq

variable (env : Env)

/-- The next turn of the main loop: `client.ReadMessage` and the choice of the handler. When it
returns, the deferred `failCurrent` and `closeTarget` run. -/
def readClient (s : Session) : Answer → Option (Effect Session Tag Instr)
  | .fail => goto s [.failCurrent, .closeTarget]
  | .client .malformed => goto s [.readClient]
  | .client (.create model) => goto s (if model = "" then [.readClient] else [.handleCreate model])
  | .client .cancel => goto s [.handleCancel]
  | .client .other => goto s [.control]
  | _ => none

variable (model : String) (c : ℕ) (s : Session)

/-- `handleResponseCreate` up to the check for a current call; it fails if the authorization does.
-/
def handleCreate : Answer → Option (Effect Session Tag Instr)
  | .fail => goto s [.readClient]
  | .ok =>
    if (s.lockedModel ≠ "" ∧ model ≠ s.lockedModel) ∨ s.current ≠ none then goto s [.readClient]
    else goto s [.checkTarget model]
  | _ => none

/-- The rest of `handleResponseCreate`; it fails if the rate limit does. -/
def checkTarget : Answer → Option (Effect Session Tag Instr)
  | .fail => goto s [.readClient]
  | .ok =>
    if s.target = none then goto s [.connect model (env.retryTimes + 1)]
    else goto s [.prepareExisting]
  | _ => none

/-- A turn of the loop of `connectAndSendFirst`, up to `prepareCall`: no channel is found or the
preparation fails, the channel is of the wrong type, or a call is prepared. -/
def connect (model : String) (s : Session) : ℕ → Answer → Option (Effect Session Tag Instr)
  | 0, _ => goto s [.commitRate false, .readClient]
  | _ + 1, .fail => goto s [.commitRate false, .readClient]
  | n + 1, .retry => goto s [.connect model n]
  | n + 1, .prepared data => goto (s.prepare data) [.dial model n s.prepared]
  | _, _ => none

/-- The adaptor and `dialResponsesWebSocketUpstream`. -/
def dial (n c : ℕ) (s : Session) : Answer → Option (Effect Session Tag Instr)
  | .fail => goto s [.refund c, .commitRate false, .readClient]
  | .retry => goto s [.refund c, .connect model n]
  | .ok => goto { s with connections := s.connections + 1 } [.setTarget model n c s.connections]
  | _ => none

/-- `tryReserveCurrent`, with what follows if the call is current now and if not. -/
def tryReserveCurrent (reserved refused : List Instr) : Option (Effect Session Tag Instr) :=
  if s.current = none then goto { s with current := some c } reserved else goto s refused

/-- `writeTarget` of the request of a call. Without a connection it fails. -/
def writeCall (next : Session → List Instr) : Option (Effect Session Tag Instr) :=
  match s.target with
  | some k =>
    let s := s.updateCall c fun call => { call with written := some k }
    goto s (next s)
  | none => none

/-- The write of the first request. -/
def writeFirst (n c : ℕ) (s : Session) : Answer → Option (Effect Session Tag Instr)
  | .ok => writeCall c { s with lockedModel := model } fun _ => [.register]
  | .fail => goto s [.beginFinish c false, .closeTarget, .commitRate false, .readClient]
  | .retry => goto s [.beginFinish c false, .retryConnect model n]
  | _ => none

/-- `registerChannelClose`, which closes the session when the process drains; the reader is started
only if the session is open. -/
def register : Answer → Option (Effect Session Tag Instr)
  | .ok => goto s (if s.closing = .idle then [.startReader] else [.readClient])
  | .fail => goto s [.closeWithCode, .readClient]
  | _ => none

/-- `startTargetReader`. -/
def startReader : Option (Effect Session Tag Instr) :=
  match s.target with
  | some k => some ⟨s, [.readClient], [⟨.reader k, [.read]⟩]⟩
  | none => goto s [.readClient]

/-- `prepareCall` of `sendOnExistingTarget`. -/
def prepareExisting : Answer → Option (Effect Session Tag Instr)
  | .fail => goto s [.commitRate false, .readClient]
  | .prepared data => goto (s.prepare data) [.reserveExisting s.prepared]
  | _ => none

/-- The write of a request over the connection that is there. -/
def writeExisting : Answer → Option (Effect Session Tag Instr)
  | .ok => writeCall c s fun _ => [.readClient]
  | .fail => goto s [.beginFinish c false, .failCurrent, .closeTarget, .readClient]
  | _ => none

/-- The write of an event that is not `response.create`: it fails without a connection, and may
fail with one. -/
def writeEvent (sent failed : List Instr) : Answer → Option (Effect Session Tag Instr)
  | .ok => if s.target = none then none else goto s sent
  | .fail => goto s failed
  | _ => none

/-- `closeOnce.Do` in `closeWithCode`: the first call runs the body, another one waits for it. -/
def closeWithCode : Option (Effect Session Tag Instr) :=
  match s.closing with
  | .idle => goto { s with closing := .running } [.failCurrent, .closeTarget, .closed]
  | .running => none
  | .done => goto s []

/-- `failCurrent`: `finishCall` for the call that `getCurrent` returns. -/
def failCurrent : Option (Effect Session Tag Instr) :=
  match s.current with
  | some c => goto s [.beginFinish c false]
  | none => goto s []

/-- `beginFinish`, the first thing `finishCall` does. -/
def beginFinish (success : Bool) (s : Session) : Option (Effect Session Tag Instr) :=
  if s.current = some c ∧ (s.calls c).finishing = false then
    goto (s.updateCall c fun call => { call with finishing := true }) [.checkPartial c success]
  else goto s []

/-- Whether `finishCall` refunds the call or posts its consumption. -/
def checkPartial (success : Bool) (s : Session) : Option (Effect Session Tag Instr) :=
  if success ∨ (s.calls c).data.hasBillablePartial then goto s [.commitUsage c]
  else goto (s.updateCall c fun call => { call with data := { call.data with images := {} } })
    [.refund c, .commitRate false, .completeFinish c]

/-- `observeUpstreamMessage` reads the current call before it parses the message. -/
def observe (m : Option StreamResponse) (s : Session) : Option (Effect Session Tag Instr) :=
  match s.current, m with
  | some c, some m => goto s [.apply c m]
  | _, _ => goto s []

/-- The update of `observeUpstreamMessage` under the mutex of the call. -/
def applyMessage (m : StreamResponse) (s : Session) : Option (Effect Session Tag Instr) :=
  let out := (s.calls c).data.observe env m
  goto (s.updateCall c fun call => { call with data := out.1 })
    (out.2.elim [] fun success => [.beginFinish c success])

/-- What an instruction does. -/
def sem : Instr → Answer → Session → Option (Effect Session Tag Instr)
  | .readClient, a, s => readClient s a
  | .handleCreate model, a, s => handleCreate model s a
  | .checkTarget model, a, s => checkTarget env model s a
  | .connect model n, a, s => connect model s n a
  | .dial model n c, a, s => dial model n c s a
  | .setTarget model n c k, _, s => goto { s with target := some k } [.reserveFirst model n c]
  | .reserveFirst model n c, _, s =>
    tryReserveCurrent c s [.writeFirst model n c]
      [.closeTarget, .refund c, .commitRate false, .readClient]
  | .writeFirst model n c, a, s => writeFirst model n c s a
  | .retryConnect model n, _, s => goto { s with target := none } [.connect model n]
  | .register, a, s => register s a
  | .startReader, _, s => startReader s
  | .prepareExisting, a, s => prepareExisting s a
  | .reserveExisting c, _, s =>
    tryReserveCurrent c s [.writeExisting c] [.refund c, .commitRate false, .readClient]
  | .writeExisting c, a, s => writeExisting c s a
  | .handleCancel, _, s => goto s (if s.current = none then [.readClient] else [.cancelTarget])
  | .cancelTarget, _, s => goto s (if s.target = none then [.readClient] else [.writeCancel])
  | .writeCancel, a, s => writeEvent s [.readClient] [.failCurrent, .closeTarget, .readClient] a
  | .control, _, s => goto s (if s.target = none then [.readClient] else [.writeControl])
  | .writeControl, a, s =>
    -- the main loop returns, and its deferred functions run once more
    writeEvent s [.readClient] [.failCurrent, .closeTarget, .failCurrent, .closeTarget] a
  | .closeWithCode, _, s => closeWithCode s
  | .closed, _, s => goto { s with closing := .done } []
  | .failCurrent, _, s => failCurrent s
  | .beginFinish c success, _, s => beginFinish c success s
  | .checkPartial c success, _, s => checkPartial c success s
  | .commitUsage c, _, s =>
    goto (s.updateCall c fun call => { call with data := call.data.commit env })
      [.consume c, .commitRate true, .completeFinish c]
  | .consume c, _, s => goto (s.bill (.consume c (s.calls c).data)) []
  | .refund c, _, s => goto (s.bill (.refund c)) []
  | .commitRate success, _, s => goto (s.bill (.commitRate success)) []
  | .completeFinish c, _, s =>
    goto (if s.current = some c then { s with current := none } else s) []
  | .closeTarget, _, s => goto { s with target := none } []
  | .read, .fail, s => goto s [.failCurrent]
  | .read, .message m, s => goto s [.observe m, .writeClient]
  | .read, _, _ => none
  | .observe m, _, s => observe m s
  | .apply c m, _, s => applyMessage env c m s
  | .writeClient, .ok, s => goto s [.read]
  | .writeClient, .fail, s => goto s [.failCurrent, .closeTarget]
  | .writeClient, _, _ => none

/-- A session before the first event of its client. -/
def opened : Pool Session Tag Instr := ⟨{}, [⟨.main, [.readClient]⟩]⟩

/-- The steps of a session: of its threads, and calls of `closeWithCode` from outside. -/
def Admissible : Label Session Tag Instr Answer → Pool Session Tag Instr → Prop
  | .step _ _, _ => True
  | .start t, _ => t = ⟨.closer, [.closeWithCode]⟩
  | .crash _, _ => False
  | .external _, _ => False

/-! ## Steps for examples -/

/-- Settings for examples. -/
def plainEnv : Env where
  retryTimes := 0
  responseByteLimit := 100
  sha256Hex := id
  toolPriced _ := false
  countTextToken _ := 0

/-- A create event over a new connection: the main loop is at the position 0. -/
def createFirst : List (Label Session Tag Instr Answer) :=
  [.step 0 (.client (.create "m")), .step 0 .ok, .step 0 .ok, .step 0 (.prepared {}), .step 0 .ok,
    .step 0 .ok, .step 0 .ok, .step 0 .ok, .step 0 .ok, .step 0 .ok]

/-- The upstream completes the current call, and the reader at the position `j` waits again. -/
def complete (j : ℕ) : List (Label Session Tag Instr Answer) :=
  .step j (.message (some
    { type := .completed, response := some { usage := some { outputTokens := 4 } } })) ::
  List.replicate 9 (.step j .ok)

end LmmApi.Responses
