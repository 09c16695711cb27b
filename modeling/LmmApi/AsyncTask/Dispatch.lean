import Mathlib.Data.Int.Notation
import Mathlib.Data.List.Dedup
import Mathlib.Data.List.Perm.Basic

/-!
# Dispatching a polling pass

`RunTaskPollingOnce` groups the unfinished tasks by platform and channel, and looks them up channel
by channel. The answers are applied through one map of a platform, which is keyed by the upstream id
alone. A pass here meets no fault: it is not cancelled, and the channels are found and answer. A
channel of Suno is asked for all its ids at once, and may answer for any ids.
-/

namespace LmmApi.TaskPolling

open List

/-- `constant.TaskPlatform`. -/
inductive TaskPlatform
  | midjourney
  | suno
  | video (name : String)
  deriving DecidableEq

/-- The columns of `model.Task` that the pass reads. -/
structure Task where
  id : ℕ
  platform : TaskPlatform
  channelId : ℤ
  taskId : String
  upstreamTaskId : String
  deriving DecidableEq

def Task.getUpstreamTaskId (t : Task) : String :=
  if t.upstreamTaskId ≠ "" then t.upstreamTaskId else t.taskId

/-- An answer of a channel about an upstream id, and the task that it is applied to. -/
structure Lookup where
  channelId : ℤ
  upstreamId : String
  task : Task

variable {α β κ : Type*} [DecidableEq κ] (f : α → κ) (F : κ → List α → List β) (l : List α)

variable (tasks : List Task) (suno : ℤ → List String → List String)

/-- `taskM`, in which a later task replaces an earlier one. -/
def taskM (upstreamId : String) : Option Task :=
  tasks.reverse.find? (·.getUpstreamTaskId = upstreamId)

/-- The answers of a channel for some ids, without those for which there is no task. -/
def applied (channelId : ℤ) (ids : List String) : List Lookup :=
  ids.filterMap fun id => (taskM tasks id).map (⟨channelId, id, ·⟩)

/-- The tasks with an upstream id. The others are failed. -/
def named : List Task := tasks.filter (·.getUpstreamTaskId ≠ "")

/-- What an entry of `taskM` stands for. -/
def Task.key (t : Task) : TaskPlatform × String := (t.platform, t.getUpstreamTaskId)

/-- The ids that a channel answers for. -/
def answered : TaskPlatform → ℤ → List String → List String
  | .midjourney, _, _ => []
  | .suno, channelId, ids => suno channelId ids
  | .video _, _, ids => ids

def ofPlatform (p : TaskPlatform) : List Task := (named tasks).filter (·.platform = p)

/-- The ids that a channel is asked for. -/
def asked (p : TaskPlatform) (channelId : ℤ) : List String :=
  ((ofPlatform tasks p).filter (·.channelId = channelId)).map Task.getUpstreamTaskId

/-- The ids with a task that a channel answers for. -/
def known (p : TaskPlatform) (channelId : ℤ) : List String :=
  (answered suno p channelId (asked tasks p channelId)).filter (taskM (ofPlatform tasks p) · |>.isSome)

variable {tasks suno} {s t : Task} {p : TaskPlatform} {id : String} {l : Lookup}

end LmmApi.TaskPolling
