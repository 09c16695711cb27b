import LmmApi.Lib.Table
import Mathlib.Data.List.AList

/-!
# The WebSocket manager

`pkg/wsmanager` keeps the WebSocket sessions of the process by channel. `Register` adds one and returns
the function that removes it, `CloseChannels` closes the sessions of some channels, and `DrainAll`
closes all of them before a restart, rejects new ones, and waits until none is left.

Every critical section of the mutex is one step. A close function is called after the section that
claimed it, so the calls that are due are part of the state, and they run in steps of their own. The
`log` says what has happened.
-/

namespace LmmApi.WsManager

/-- The codes that sessions are closed with. -/
inductive CloseCode
  | serviceRestart
  | policyViolation
  deriving DecidableEq

/-- A call of the close function of a session. -/
structure Close where
  id : ℕ
  code : CloseCode
  reason : String
  deriving DecidableEq

/-- `entry`, with the `sync.Once` of the unregister function if the session was accepted. The entry is
found under its id. -/
structure Session where
  channelID : ℤ
  kind : String
  closeOnce : Bool
  unregisterOnce : Option Bool

/-- What has happened. -/
inductive Event
  | accepted (id : ℕ)
  | rejected (id : ℕ)
  | unregistered (id : ℕ)
  | claimed (close : Close)
  | closed (close : Close)
  | draining
  | drainDone
  | drained
  | expired
  deriving DecidableEq

/-- The variables of the package, the calls of close functions that are due, and the calls of
`DrainAll` that wait. -/
structure State where
  sessions : Table Session
  registry : AList fun _ : ℤ => List ℕ
  draining : Bool
  drainDone : Bool
  drainComplete : Bool
  due : List Close
  waiting : ℕ
  log : List Event

def defaultCloseReason : String := "channel disabled or deleted"

def serviceRestartReason : String := "service restarting"

def start : State := ⟨Table.empty, ∅, false, false, false, [], 0, []⟩

namespace State

variable (s : State) (channelID : ℤ)

/-- The `sync.Once` of a close function is used. -/
def claim (close : Close) : State :=
  { s with
    sessions := s.sessions.modify close.id fun session => { session with closeOnce := true }
    log := s.log ++ [.claimed close] }

def claimClose (id : ℕ) (code : CloseCode) (reason : String) : Option Close × State :=
  match s.sessions.get? id with
  | none => (none, s)
  | some session =>
    if session.closeOnce then (none, s) else (some ⟨id, code, reason⟩, s.claim ⟨id, code, reason⟩)

/-- The loop that claims the close functions of some entries. -/
def claimAll (code : CloseCode) (reason : String) : List ℕ → State → List Close × State
  | [], s => ([], s)
  | id :: ids, s =>
    let (close, s) := s.claimClose id code reason
    let (closes, s) := claimAll code reason ids s
    (close.toList ++ closes, s)

def signalDrainedLocked : State :=
  if s.draining ∧ s.drainComplete = false ∧ s.registry.entries = [] then
    { s with drainComplete := true, drainDone := true, log := s.log ++ [.drainDone] }
  else s

/-- `Register` while the manager is draining: the close function of the session is called. -/
def reject (kind : String) : State :=
  let id := s.sessions.next
  let s := { s with sessions := s.sessions.insert ⟨channelID, kind, false, none⟩ }
  let (close, s) := s.claimClose id .serviceRestart serviceRestartReason
  { s with due := s.due ++ close.toList, log := s.log ++ [.rejected id] }

/-- `Register` while the manager is not draining. -/
def accept (kind : String) : State :=
  let id := s.sessions.next
  { s with
    sessions := s.sessions.insert ⟨channelID, kind, false, some false⟩
    registry := s.registry.insert channelID ((s.registry.lookup channelID).getD [] ++ [id])
    log := s.log ++ [.accepted id] }

def register (kind : String) (closeFn : Bool) : State :=
  if channelID < 0 ∨ closeFn = false then s
  else if s.draining then s.reject channelID kind
  else s.accept channelID kind

/-- The registry without an entry, and without its channel if it was the last one. -/
def deleteEntry (id : ℕ) : State :=
  let entries := ((s.registry.lookup channelID).getD []).erase id
  { s with
    registry := if entries = [] then s.registry.erase channelID
      else s.registry.insert channelID entries }

/-- The function that `Register` returned for a session. -/
def unregister (id : ℕ) : State :=
  match s.sessions.get? id with
  | some ⟨channelID, _, _, some false⟩ =>
    { s.deleteEntry channelID id with
      sessions := s.sessions.modify id fun session => { session with unregisterOnce := some true }
      log := s.log ++ [Event.unregistered id] }.signalDrainedLocked
  | _ => s

/-- `DrainAll` up to its waiting. -/
def drainAll : State :=
  let s :=
    if s.draining then s
    else
      let s := { s with draining := true, log := s.log ++ [Event.draining] }
      let (closes, s) := claimAll .serviceRestart serviceRestartReason
        (s.registry.entries.flatMap fun x => x.2) s
      { s with due := s.due ++ closes }.signalDrainedLocked
  { s with waiting := s.waiting + 1 }

end State

def uniqueChannelIDs (channelIDs : List ℤ) : List ℤ :=
  channelIDs.foldl (fun ids id => if id ≤ 0 then ids else if id ∈ ids then ids else ids ++ [id]) []

def normalizeReason (reason : String) : String := if reason = "" then defaultCloseReason else reason

namespace State

/-- The loop of `takeEntries`. -/
def takeChannels (code : CloseCode) (reason : String) : List ℤ → State → List Close × State
  | [], s => ([], s)
  | channelID :: channelIDs, s =>
    let (closes, s) := claimAll code reason ((s.registry.lookup channelID).getD []) s
    let s := if s.draining then s else { s with registry := s.registry.erase channelID }
    let (more, s) := takeChannels code reason channelIDs s
    (closes ++ more, s)

def takeEntries (s : State) (channelIDs : List ℤ) (code : CloseCode) (reason : String) :
    List Close × State :=
  let (closes, s) := takeChannels code reason (uniqueChannelIDs channelIDs) s
  (closes, s.signalDrainedLocked)

/-- `CloseChannels`: how many sessions it closes, and the calls that it is about to make. -/
def closeChannels (s : State) (channelIDs : List ℤ) (reason : String) : ℕ × State :=
  let (closes, s) := s.takeEntries channelIDs .policyViolation (normalizeReason reason)
  (closes.length, { s with due := s.due ++ closes })

end State

/-- The steps of the goroutines: the critical sections, the calls of close functions, and the ends of
calls of `DrainAll`. -/
inductive Action
  | register (channelID : ℤ) (kind : String) (closeFn : Bool)
  | unregister (id : ℕ)
  | closeChannels (channelIDs : List ℤ) (reason : String)
  | drainAll
  | close (i : ℕ)
  | drained
  | expired

/-- The state after a step. A step that is not possible leaves the state as it is. -/
def exec : Action → State → State
  | .register channelID kind closeFn, s => s.register channelID kind closeFn
  | .unregister id, s => s.unregister id
  | .closeChannels channelIDs reason, s => (s.closeChannels channelIDs reason).2
  | .drainAll, s => s.drainAll
  | .close i, s =>
    match s.due[i]? with
    | some close => { s with due := s.due.eraseIdx i, log := s.log ++ [.closed close] }
    | none => s
  | .drained, s =>
    -- the channel is closed, and `DrainAll` returns nil
    if 0 < s.waiting ∧ s.drainDone then { s with waiting := s.waiting - 1, log := s.log ++ [.drained] }
    else s
  | .expired, s =>
    if 0 < s.waiting then { s with waiting := s.waiting - 1, log := s.log ++ [.expired] } else s

end LmmApi.WsManager
