import TaskGen.Act
import TaskGen.Solution

/-!
The verification tasks are solved elsewhere.  A task is submitted, and its solution is asked
for until there is one.
-/

namespace TaskGen

/-- Why a task is not accepted, or its solution not available. -/
inductive SessionError where
  | io
  | json
  /-- Nobody knows the task. -/
  | unknownTask (id : String)
  | rejected (reason : String)

def SessionError.message : SessionError → String
  | .io => "I/O error"
  | .json => "JSON error"
  | .unknownTask id => "unknown remote task " ++ id
  | .rejected reason => "scheduler rejected the task: " ++ reason

/-- The way to those who solve tasks. -/
structure Session (σ : Type) where
  /-- Submit a task with the directory of its files.  The result is what to ask with. -/
  schedule : (task bundle : Path) → Act σ SessionError String
  /-- The solution, if there is one by now. -/
  solution : String → Act σ SessionError (Option Solution)

namespace Session

variable {σ : Type}

/-- Ask until there is a solution, with a pause behind every answer that is none.  Who has
asked as often as the patience allows never gets one. -/
def await (s : Session σ) (pause : Duration) (id : String) : Nat → Act σ SessionError Solution
  | 0 => Act.hang
  | patience + 1 => do
    match ← s.solution id with
    | some solution => pure solution
    | none =>
      Act.wait pause
      await s pause id patience

end Session
end TaskGen
