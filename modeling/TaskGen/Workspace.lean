import TaskGen.Stage
import TaskGen.Task

namespace TaskGen

/-- The directory under which everything is made.  Every identifier is one step below it,
whatever characters it has. -/
structure Workspace where
  root : Path
  deriving DecidableEq, Repr

namespace Workspace

/-- What a pipeline starts from: the description of a fragment or a model. -/
def initialTask : String := "initial abstract task.json"

/-- The result of the last shared stage: all models. -/
def abstractTasks : String := "abstract tasks.json"

/-- What is submitted: the result of the last stage. -/
def finalTask : String := "final abstract task.json"

/-- The model that has no other one beside it. -/
def singleModel : String := "single"

def stageOutput (s : Stage) : String := s.name ++ " abstract task.json"

def stageConf (s : Stage) : String := s.name ++ " conf.json"

def escapeChar (c : Char) : List Char :=
  if c = '%' then ['%', '2', '5'] else if c = '/' then ['%', '2', 'F'] else [c]

/-- An identifier as the name of a directory.  A slash would make it two steps, and dots
alone would lead up or nowhere.  The empty identifier gets the percent sign alone, which
no other one gets. -/
def escape (id : String) : String :=
  if id = "" then "%"
  else if id = "." then "%2E"
  else if id = ".." then "%2E%2E"
  else String.ofList (id.toList.flatMap escapeChar)

def abstractDir (w : Workspace) (id : AbstractTaskId) : Path :=
  (w.root.join (escape id.fragment)).join (escape id.classKey)

def modelDir (w : Workspace) (id : AbstractTaskId) (model : String) : Path :=
  (w.abstractDir id).join (escape model)

def taskDir (w : Workspace) (id : TaskId) : Path :=
  (w.modelDir id.abstractId id.model).join (escape id.requirement)

/-- The first attempt works in the directory of the task itself. -/
def attemptDir (w : Workspace) (id : TaskId) (attempt : Nat) : Path :=
  if attempt = 0 then w.taskDir id
  else (w.taskDir id).join ("attempt-" ++ toString attempt)

end Workspace
end TaskGen
