/-
The status of a pipeline, which only moves forward: pending, then running, then success or error. A
pending pipeline may end without having been seen running.
-/
namespace Pipeworks

inductive Status where
  | pending
  | running
  | success
  | error
  deriving DecidableEq, Repr

namespace Status

def name : Status → String
  | .pending => "pending"
  | .running => "running"
  | .success => "success"
  | .error => "error"

def all : List Status := [.pending, .running, .success, .error]

/-- Every status with its name. -/
def names : List (String × Status) := all.map fun s => (s.name, s)

def ofName? (s : String) : Option Status := names.lookup s

/-- A status that never changes again. -/
def isTerminal : Status → Bool
  | .success => true
  | .error => true
  | _ => false

/-- Whether a pipeline may move from one status to the other. -/
def canAdvanceTo : Status → Status → Bool
  | .pending, .running => true
  | .pending, next => next.isTerminal
  | .running, next => next.isTerminal
  | _, _ => false

/-- The statuses from which `next` may be entered. -/
def predecessors : Status → List Status
  | .pending => []
  | .running => [.pending]
  | .success => [.pending, .running]
  | .error => [.pending, .running]

theorem mem_predecessors (s next : Status) : s ∈ next.predecessors ↔ s.canAdvanceTo next := by
  cases s <;> cases next <;> decide

/-- What is said about a name that is no status. -/
def unknownMessage (s : String) : String := "unknown pipeline status: " ++ s

end Status

/-- How a run ended. -/
inductive Outcome where
  | success
  | failure
  deriving DecidableEq, Repr

namespace Outcome

def name : Outcome → String
  | .success => "success"
  | .failure => "failure"

def names : List (String × Outcome) := [(name .success, .success), (name .failure, .failure)]

/-- The status of a pipeline whose run ended so. -/
def status : Outcome → Status
  | .success => .success
  | .failure => .error

theorem status_isTerminal (o : Outcome) : o.status.isTerminal := by cases o <;> rfl

end Outcome

/-- The phase of a run that failed it. -/
inductive FailureCategory where
  | fetch
  | config
  | provision
  | execution
  | timeout
  | internal
  deriving DecidableEq, Repr

namespace FailureCategory

def name : FailureCategory → String
  | .fetch => "fetch_error"
  | .config => "config_error"
  | .provision => "provision_error"
  | .execution => "execution_error"
  | .timeout => "timeout_error"
  | .internal => "internal_error"

def all : List FailureCategory := [.fetch, .config, .provision, .execution, .timeout, .internal]

def names : List (String × FailureCategory) := all.map fun c => (c.name, c)

/-- What may be said of the failure in public. -/
def description : FailureCategory → String
  | .fetch => "Could not fetch the commit"
  | .config => "Pipeline definition is missing or invalid"
  | .provision => "Could not start the build container"
  | .execution => "A pipeline command failed"
  | .timeout => "Pipeline timed out"
  | .internal => "Pipeline errored"

end FailureCategory

end Pipeworks
