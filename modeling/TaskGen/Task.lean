import TaskGen.Limits
import TaskGen.Path
import TaskGen.Solution

namespace TaskGen

/-- A fragment and a class of requirements: what the shared stages are run for. -/
structure AbstractTaskId where
  fragment : String
  classKey : String
  deriving DecidableEq, Repr

/-- A requirement to check on an environment model of a fragment. -/
structure TaskId where
  fragment : String
  classKey : String
  model : String
  requirement : String
  deriving DecidableEq, Repr

namespace AbstractTaskId

def text (id : AbstractTaskId) : String := id.fragment ++ "/" ++ id.classKey

def toJson (id : AbstractTaskId) : Json.Value :=
  .object [("class_key", .string id.classKey), ("fragment", .string id.fragment)]

open Json in
def ofDocument? (d : Document) : Option AbstractTaskId := do
  let known ← d.record? ["fragment", "class_key"]
  some {
    fragment := ← required? known "fragment" Document.string?
    classKey := ← required? known "class_key" Document.string? }

end AbstractTaskId

namespace TaskId

/-- The abstract task that a task comes from. -/
def abstractId (id : TaskId) : AbstractTaskId := ⟨id.fragment, id.classKey⟩

def text (id : TaskId) : String :=
  id.abstractId.text ++ "/" ++ id.model ++ "/" ++ id.requirement

def toJson (id : TaskId) : Json.Value :=
  .object [("class_key", .string id.classKey), ("env_model", .string id.model),
    ("fragment", .string id.fragment), ("requirement", .string id.requirement)]

open Json in
def ofDocument? (d : Document) : Option TaskId := do
  let known ← d.record? ["fragment", "class_key", "env_model", "requirement"]
  some {
    fragment := ← required? known "fragment" Document.string?
    classKey := ← required? known "class_key" Document.string?
    model := ← required? known "env_model" Document.string?
    requirement := ← required? known "requirement" Document.string? }

/-- Tasks are ordered by fragment, class, model and requirement, in this order. -/
def order (a b : TaskId) : Ordering :=
  (compare a.fragment b.fragment).then ((compare a.classKey b.classKey).then
    ((compare a.model b.model).then (compare a.requirement b.requirement)))

end TaskId

/-- A model of the environment of a fragment.  Tasks start from its artifact. -/
structure EnvModel where
  id : String
  dir : Path
  artifact : Path
  deriving DecidableEq, Repr

structure AbstractTask where
  id : AbstractTaskId
  /-- The description of the fragment. -/
  descriptor : Path
  deriving DecidableEq, Repr

/-- An attempt at a task.  The first one has the number 0. -/
structure Task where
  id : TaskId
  attempt : Nat
  limits : Limits
  artifact : Path
  deriving DecidableEq, Repr

/-- What a worker can be given. -/
inductive WorkItem where
  | abstractTask (t : AbstractTask)
  | task (t : Task)
  deriving DecidableEq, Repr

/-- What an item is about.  All attempts at a task have the same key, so no two of them are
under way at once. -/
inductive ItemKey where
  | abstractTask (id : AbstractTaskId)
  | task (id : TaskId)
  deriving DecidableEq, Repr

namespace WorkItem

def key : WorkItem → ItemKey
  | .abstractTask t => .abstractTask t.id
  | .task t => .task t.id

def fragment : WorkItem → String
  | .abstractTask t => t.id.fragment
  | .task t => t.id.fragment

def text : WorkItem → String
  | .abstractTask t => "abstract task " ++ t.id.text
  | .task t => "task " ++ t.id.text ++ " (attempt " ++ toString t.attempt ++ ")"

end WorkItem

/-- The end of the work on an item. -/
inductive Completion where
  | abstractTask (t : AbstractTask) (models : Except String (List EnvModel))
  | task (t : Task) (solution : Solution)

namespace Completion

def key : Completion → ItemKey
  | .abstractTask t _ => .abstractTask t.id
  | .task t _ => .task t.id

/-- For an item whose worker cannot say anything about it. -/
def failed (item : WorkItem) (reason : String) : Completion :=
  match item with
  | .abstractTask t => .abstractTask t (.error reason)
  | .task t => .task t (.crashed reason)

@[simp] theorem key_failed (item : WorkItem) (reason : String) :
    (failed item reason).key = item.key := by cases item <;> rfl

end Completion
end TaskGen
