import TaskGen.EnvModels
import TaskGen.Session

/-!
A worker turns every item that it gets into one completion, whatever happens on the way.
-/

namespace TaskGen

/-- What all workers need and none of them changes. -/
structure Worker (σ : Type) where
  registry : Registry (Runner σ)
  session : Session σ
  classes : RequirementClasses
  workspace : Workspace
  /-- The pause between two questions for a solution. -/
  pause : Duration
  /-- How often a worker asks for a solution. -/
  patience : Nat

/-- Why there is no solution. -/
inductive WorkerError where
  | stage (e : StageError)
  | session (e : SessionError)
  | unknownRequirement (requirement classKey : String)

/-- A stage that fails settles the task.  A session that breaks down says nothing about the
task, so that is a crash. -/
def WorkerError.solution : WorkerError → Solution
  | .stage e => .stageFailed e.message
  | .session e => .crashed e.message
  | .unknownRequirement requirement classKey =>
    .stageFailed ("requirement " ++ requirement ++ " is not a member of class " ++ classKey)

namespace Worker

variable {σ : Type}

/-! ### Abstract tasks -/

/-- The environment models, or why there are none. -/
def generate (k : Worker σ) (t : AbstractTask) : Act σ Empty (Except String (List EnvModel)) :=
  match Dict.find? k.classes t.id.classKey with
  | none => pure (.error ("unknown requirement class " ++ t.id.classKey))
  | some c => do
    let models ← (EnvModels.generate k.registry k.workspace t c).attempt
    pure (models.mapError StageError.message)

/-! ### Tasks -/

/-- The stages of an attempt and what they start from.  The first attempt runs all stages of
the requirement on the model.  A later one runs only the last stage, on the final result of
the attempt before it. -/
def plan (w : Workspace) (t : Task) (own : List ConfiguredStage) : List ConfiguredStage × Path :=
  if t.attempt = 0 then (own, t.artifact)
  else
    (own.drop (own.length - 1),
      (w.attemptDir t.id (t.attempt - 1)).join Workspace.finalTask)

def requirement? (k : Worker σ) (id : TaskId) : Option Requirement := do
  (← Dict.find? k.classes id.classKey).member? id.requirement

/-- The chain of the stages of an attempt.  The last result becomes the final one. -/
def prepareWith (k : Worker σ) (t : Task) (own : List ConfiguredStage) : Act σ StageError Path := do
  let dir := k.workspace.attemptDir t.id t.attempt
  Pipeline.io (Act.makeDirs dir)
  let (stages, input) := plan k.workspace t own
  let last ← Pipeline.runChain k.registry ⟨dir, some t.id.requirement, some t.limits⟩
    (stages.map fun c => (c, Workspace.stageOutput c.stage)) input
  let final := dir.join Workspace.finalTask
  if last.same final then pure final
  else
    Pipeline.io (Act.change fun files => files.copy last final)
    pure final

/-- Produce the final result of an attempt. -/
def prepare (k : Worker σ) (t : Task) : Act σ WorkerError Path :=
  match k.requirement? t.id with
  | none => Act.fail (.unknownRequirement t.id.requirement t.id.classKey)
  | some r => (k.prepareWith t r.ownStages).mapError .stage

/-- Prepare an attempt, submit it and wait for its solution. -/
def solve (k : Worker σ) (t : Task) : Act σ WorkerError Solution := do
  let final ← k.prepare t
  let bundle := k.workspace.attemptDir t.id t.attempt
  let id ← (k.session.schedule final bundle).mapError WorkerError.session
  (k.session.await k.pause id k.patience).mapError WorkerError.session

/-! ### Items -/

def process (k : Worker σ) : WorkItem → Act σ Empty Completion
  | .abstractTask t => do pure (.abstractTask t (← k.generate t))
  | .task t => do
    match ← (k.solve t).attempt with
    | .ok solution => pure (.task t solution)
    | .error e => pure (.task t e.solution)

/-- The completion of an item.  Only an item that hangs has none. -/
def complete (item : WorkItem) : Outcome Empty Completion → Option Completion
  | .done c => some c
  | .panicked reason => some (.failed item ("worker panicked: " ++ reason))
  | .hung => none

/-- Work on an item, unless the run is about to end. -/
def serve (k : Worker σ) (item : WorkItem) (w : World σ) : Option Completion × World σ :=
  if w.stopped.isSome then (some (.failed item "cancelled before start"), w)
  else
    let (outcome, w) := k.process item w
    (complete item outcome, w)

/-- Work on items one after the other.  Behind one that hangs nothing is done any more. -/
def serveAll (k : Worker σ) : List WorkItem → World σ → List Completion × World σ
  | [], w => ([], w)
  | item :: rest, w =>
    match k.serve item w with
    | (none, w) => ([], w)
    | (some c, w) =>
      let (others, w) := serveAll k rest w
      (c :: others, w)

end Worker
end TaskGen
