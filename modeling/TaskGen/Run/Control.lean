import TaskGen.Run.State

/-!
What the loop does with a completion.  Every requirement of every fragment ends exactly
once, and what was made for it is released when it does.
-/

namespace TaskGen
namespace Run

open State

/-- Announce the total, unless that has been done. -/
def announce (total : Nat) (s : State) : State :=
  match s.report.total with
  | some _ => s
  | none => emit { s with report := { s.report with total := some total } } (.announce total)

/-- Give a directory back, unless all files are kept. -/
def release (r : Run) (dir : Path) (s : State) : State :=
  if r.config.keepFiles then s else s.emit (.release dir)

def record (o : TaskOutcome) (s : State) : State :=
  emit { s with report := s.report.record o } (.complete o.requirement o.status)

/-! ### Abstract tasks -/

/-- Without a model the requirement fails, and nothing is attempted. -/
def outcomeWithoutModel (id : AbstractTaskId) (requirement : String) : TaskOutcome where
  fragment := id.fragment
  classKey := id.classKey
  model := none
  requirement
  status := .failed
  attempts := 0

/-- When no abstract task is left the total is known. -/
def afterAbstract (s : State) : State :=
  if s.pendingAbstract = 0 then announce s.expectedTotal s else s

/-- No model, so the whole class fails for the fragment. -/
def failClass (r : Run) (id : AbstractTaskId) (c : RequirementClass) (s : State) : State :=
  let s := { s with expectedTotal := s.expectedTotal + c.size }
  let s := c.identifiers.foldl (fun s q => record (outcomeWithoutModel id q) s) s
  afterAbstract (r.release (r.workspace.abstractDir id) s)

/-- The tasks of an abstract task, model by model, with the models they start from. -/
def constructed (id : AbstractTaskId) (c : RequirementClass) (models : List EnvModel) :
    List (TaskId × Path) :=
  models.flatMap fun m =>
    c.identifiers.map fun q => (⟨id.fragment, id.classKey, m.id, q⟩, m.artifact)

/-- Queue the first attempt at a task. -/
def queueTask (s : State) (task : TaskId × Path) : State :=
  let (limits, governor) := s.governor.limitsFor task.1
  { s with
    governor
    backlog := s.backlog ++ [.task ⟨task.1, 0, limits, task.2⟩] }

/-- Every model is checked for every member of the class. -/
def fanOut (id : AbstractTaskId) (c : RequirementClass) (models : List EnvModel) (s : State) :
    State :=
  let count := models.length * c.size
  let report := { s.report with
    envModels := s.report.envModels + models.length
    tasksConstructed := s.report.tasksConstructed + count }
  let s := { s with
    report
    expectedTotal := s.expectedTotal + count
    openTasks := (s.openTasks.filter fun p => p.1 ≠ id) ++ [(id, count)] }
  afterAbstract ((constructed id c models).foldl queueTask s)

/-- An abstract task is dealt with.  No model is as bad as an error. -/
def onAbstract (r : Run) (t : AbstractTask) (models : Except String (List EnvModel)) (s : State) :
    State :=
  let report := { s.report with abstractTasks := s.report.abstractTasks + 1 }
  let s := { s with pendingAbstract := s.pendingAbstract - 1, report }
  match Dict.find? r.classes t.id.classKey with
  | none => s
  | some c =>
    match models with
    | .ok (m :: ms) => fanOut t.id c (m :: ms) s
    | _ => r.failClass t.id c s

/-! ### Tasks -/

def outcomeOf (t : Task) (status : FinalStatus) (attempts : Nat) : TaskOutcome where
  fragment := t.id.fragment
  classKey := t.id.classKey
  model := some t.id.model
  requirement := t.id.requirement
  status
  attempts

/-- One task less is open.  With the last one the directory of the abstract task goes. -/
def closeTask (r : Run) (id : AbstractTaskId) (s : State) : State :=
  match s.openTasks.lookup id with
  | none => s
  | some count =>
    let others := s.openTasks.filter fun p => p.1 ≠ id
    if count - 1 = 0 then
      r.release (r.workspace.abstractDir id) { s with openTasks := others }
    else { s with openTasks := others ++ [(id, count - 1)] }

/-- A task has ended. -/
def finishTask (r : Run) (t : Task) (status : FinalStatus) (attempts : Nat) (s : State) : State :=
  let s := record (outcomeOf t status attempts) s
  let s := { s with governor := s.governor.forget t.id }
  r.closeTask t.id.abstractId (r.release (r.workspace.taskDir t.id) s)

/-- Queue a further attempt. -/
def queueRetry (r : Run) (item : WorkItem) (s : State) : State :=
  if r.config.scheduling.deferRescheduling then { s with retries := s.retries ++ [item] }
  else { s with backlog := item :: s.backlog }

/-- Try a task again, or fail it if that is not granted. -/
def reschedule (r : Run) (t : Task) (s : State) : State :=
  match s.governor.reschedule t.id with
  | (none, governor) => r.finishTask t .failed (t.attempt + 1) { s with governor }
  | (some attempt, governor) =>
    let (limits, governor) := governor.limitsFor t.id
    let report := { s.report with rescheduled := s.report.rescheduled + 1 }
    r.queueRetry (.task { t with attempt, limits }) { s with governor, report }

/-- An attempt at a task has a solution.  While the run is being cancelled nothing is tried
again. -/
def onTask (r : Run) (t : Task) (solution : Solution) (s : State) : State :=
  let (verdict, governor) := s.governor.addSolution t.id solution.status
  let s := { s with governor }
  match verdict with
  | .final status => r.finishTask t status (t.attempt + 1) s
  | .reschedulable =>
    if s.cancelling then r.finishTask t .failed (t.attempt + 1) s else r.reschedule t s

/-! ### Completions -/

def kindOf : Completion → String
  | .abstractTask _ _ => Metrics.abstractKind
  | .task _ _ => Metrics.taskKind

/-- Deal with a completion.  It counts only if its item is under way. -/
def onCompletion (r : Run) (now : Duration) (c : Completion) (s : State) : State :=
  match s.leave? c.key with
  | none => s
  | some (f, s) =>
    let metrics := s.report.metrics.recordCompletion (kindOf c) (now.minus f.admitted)
    let s := { s with report := { s.report with metrics } }
    match c with
    | .abstractTask t models => r.onAbstract t models s
    | .task t solution => r.onTask t solution s

/-! ### Cancellation -/

def beginCancel (s : State) : State :=
  { s with cancelling := true, report := { s.report with cancelled := true } }

/-- Give up what is still under way. -/
def strand (r : Run) (now : Duration) (s : State) : State :=
  s.inFlight.foldl (fun s p =>
    r.onCompletion now (.failed p.2.item "aborted after shutdown grace period") s) s

/-- Fail an item that was never admitted. -/
def dropItem (r : Run) (item : WorkItem) (s : State) : State :=
  match item with
  | .abstractTask t => r.onAbstract t (.error "cancelled before admission") s
  | .task t => r.finishTask t .failed t.attempt s

def dropWaiting (r : Run) (s : State) : State :=
  (s.backlog ++ s.retries).foldl (fun s item => r.dropItem item s)
    { s with backlog := [], retries := [] }

/-! ### Beginning and end -/

/-- The first state.  Where one model for each fragment is expected, the total is announced
at once. -/
def start (r : Run) (fragments : FragmentSet) : State :=
  let s := r.queued fragments
  if r.config.singleModel then
    announce (fragments.length * RequirementClasses.totalRequirements r.classes) s
  else s

/-- The last state.  The total is announced now if it has not been before. -/
def finish (now : Duration) (s : State) : State :=
  let s := announce s.expectedTotal s
  { s with report := { s.report with metrics := s.report.metrics.finish now } }

end Run
end TaskGen
