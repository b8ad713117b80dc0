/-!
Contract: the background work of a session.

Owns:
- the tasks that were started and have not ended;
- starting work, and the end of all work.

Does not own: what the tasks do.
-/

namespace LivePage

/-- Why work cannot be started. -/
inductive ExecutorError where
  | shutDown
  | noRuntime
deriving DecidableEq, Repr

def ExecutorError.message : ExecutorError → String
  | .shutDown => "session executor has been shut down"
  | .noRuntime => "no tokio runtime is available to run session work"

/-- How a task ends once it gets to run. -/
inductive TaskKind where
  /-- It ends, by itself or by a failure of its own. -/
  | ending
  | endless
deriving DecidableEq, Repr

/-- The tasks of a session; none once it was shut down. -/
structure Executor where
  tasks : Option (List TaskKind)
deriving DecidableEq, Repr, Inhabited

namespace Executor

def new : Executor := ⟨some []⟩

def isShutDown (executor : Executor) : Bool :=
  executor.tasks.isNone

/-- The number of tasks that have not ended. -/
def outstanding (executor : Executor) : Nat :=
  (executor.tasks.getD []).length

/-- Starts a task. There must be a runtime to run it, and the executor must
not have been shut down. -/
def spawn (executor : Executor) (hasRuntime : Bool) (task : TaskKind) :
    Except ExecutorError Executor :=
  if hasRuntime then
    match executor.tasks with
    | none => .error .shutDown
    | some tasks => .ok ⟨some (tasks ++ [task])⟩
  else .error .noRuntime

/-- Runs the tasks until only endless ones are left. -/
def settle (executor : Executor) : Executor :=
  ⟨executor.tasks.map (fun tasks => tasks.filter (· = .endless))⟩

/-- Ends all work and refuses new work. The second part counts the tasks that
had not ended. -/
def shutDown (executor : Executor) : Executor × Nat :=
  (⟨none⟩, executor.outstanding)

end Executor

end LivePage
