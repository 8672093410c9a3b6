import TaskGen.Metrics
import TaskGen.Solution

namespace TaskGen

/-- How a requirement ended for a fragment. -/
structure TaskOutcome where
  fragment : String
  classKey : String
  /-- There is none if there was no model to check. -/
  model : Option String
  requirement : String
  status : FinalStatus
  attempts : Nat
  deriving DecidableEq, Repr

def TaskOutcome.toJson (o : TaskOutcome) : Json.Value :=
  .object [("attempts", .nat o.attempts), ("class_key", .string o.classKey),
    ("env_model", .optional .string o.model), ("fragment", .string o.fragment),
    ("requirement", .string o.requirement), ("status", .string o.status.name)]

/-- What is known at the end of a run. -/
structure Report where
  subJob : String
  /-- The abstract tasks that have been dealt with. -/
  abstractTasks : Nat
  envModels : Nat
  tasksConstructed : Nat
  finished : Nat
  failed : Nat
  rescheduled : Nat
  /-- The total that was announced, if it has been. -/
  total : Option Nat
  cancelled : Bool
  outcomes : List TaskOutcome
  metrics : Metrics

namespace Report

def empty (subJob : String) : Report :=
  ⟨subJob, 0, 0, 0, 0, 0, 0, none, false, [], .empty⟩

def record (r : Report) (o : TaskOutcome) : Report :=
  let r := { r with outcomes := r.outcomes ++ [o] }
  match o.status with
  | .finished => { r with finished := r.finished + 1 }
  | .failed => { r with failed := r.failed + 1 }

/-- How many requirements have ended. -/
def terminal (r : Report) : Nat := r.finished + r.failed

/-- The outcomes of a requirement for a fragment, one for each model. -/
def outcomesFor (r : Report) (fragment requirement : String) : List TaskOutcome :=
  r.outcomes.filter fun o => o.fragment = fragment ∧ o.requirement = requirement

end Report
end TaskGen
