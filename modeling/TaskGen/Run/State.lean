import TaskGen.Config
import TaskGen.Fragment.Listing
import TaskGen.Governor
import TaskGen.Metrics
import TaskGen.RequirementClass
import TaskGen.Run.Report
import TaskGen.Workspace

/-!
A run has one loop that controls it.  The loop owns the state here.  The workers never see
it: they get items from one channel, and their completions come back on another one.
-/

namespace TaskGen

/-- What a run is about. -/
structure Run where
  config : Config
  classes : RequirementClasses

namespace Run

def workspace (r : Run) : Workspace := ⟨r.config.mainDirectory⟩

/-- An item that is admitted and not yet completed. -/
structure InFlight where
  item : WorkItem
  /-- When it was admitted. -/
  admitted : Duration

/-- What the loop does to the world outside. -/
inductive Effect where
  /-- Tell how many requirements will end. -/
  | announce (total : Nat)
  /-- Tell how a requirement ended. -/
  | complete (requirement : String) (status : FinalStatus)
  /-- A directory is not needed any more. -/
  | release (dir : Path)
  deriving DecidableEq, Repr

/-- What those who follow the progress get to see of an effect. -/
def Effect.progress? (subJob : String) : Effect → Option Json.Value
  | .announce total =>
    some (.object [("event", .string "total"), ("sub_job", .string subJob),
      ("total", .nat total)])
  | .complete requirement status =>
    some (.object [("event", .string "completed"), ("requirement", .string requirement),
      ("status", .string status.name), ("sub_job", .string subJob)])
  | .release _ => none

structure State where
  /-- Abstract tasks and first attempts, in the order in which they are admitted. -/
  backlog : List WorkItem
  /-- Further attempts that wait until the backlog is empty. -/
  retries : List WorkItem
  inFlight : List (ItemKey × InFlight)
  /-- The abstract tasks that have not been dealt with. -/
  pendingAbstract : Nat
  /-- The number of tasks that have not ended, for each abstract task that has some. -/
  openTasks : List (AbstractTaskId × Nat)
  /-- How many requirements end in this run, as far as it is known. -/
  expectedTotal : Nat
  governor : Governor
  report : Report
  cancelling : Bool
  /-- All effects so far, the oldest one first. -/
  effects : List Effect

namespace State

/-- The progress so far. -/
def progress (s : State) : List Json.Value :=
  s.effects.filterMap (Effect.progress? s.report.subJob)

/-- Nothing is waiting, nothing is under way. -/
def isDone (s : State) : Bool :=
  s.backlog.isEmpty && s.retries.isEmpty && s.inFlight.isEmpty && s.pendingAbstract == 0

def emit (s : State) (e : Effect) : State := { s with effects := s.effects ++ [e] }

/-- What is admitted next: the backlog goes before the retries. -/
def next? (s : State) : Option (WorkItem × State) :=
  match s.backlog, s.retries with
  | item :: rest, _ => some (item, { s with backlog := rest })
  | [], item :: rest => some (item, { s with retries := rest })
  | [], [] => none

/-- How many items wait for their admission. -/
def waiting (s : State) : Nat := s.backlog.length + s.retries.length

theorem waiting_of_next? {s rest : State} {item : WorkItem} (h : s.next? = some (item, rest)) :
    rest.waiting + 1 = s.waiting := by
  unfold next? at h
  split at h
  · next hb => cases h; simp [waiting, hb]; omega
  · next hb hr => cases h; simp [waiting, hb, hr]
  · simp at h

theorem next?_eq_none_iff (s : State) : s.next? = none ↔ s.waiting = 0 := by
  unfold next? waiting
  cases s.backlog <;> cases s.retries <;> simp

/-- Add an item to those under way. -/
def enter (s : State) (item : WorkItem) (now : Duration) : State :=
  { s with inFlight := (s.inFlight.filter fun p => p.1 ≠ item.key) ++ [(item.key, ⟨item, now⟩)] }

/-- Take an item from those under way. -/
def leave? (s : State) (key : ItemKey) : Option (InFlight × State) :=
  (s.inFlight.lookup key).map fun f =>
    (f, { s with inFlight := s.inFlight.filter fun p => p.1 ≠ key })

end State

/-- The state before the first item is queued. -/
def fresh (r : Run) : State where
  backlog := []
  retries := []
  inFlight := []
  pendingAbstract := 0
  openTasks := []
  expectedTotal := 0
  governor := .ofPolicy r.config.escalation
  report := .empty r.config.subJob
  cancelling := false
  effects := []

/-- An abstract task for every fragment and every class. -/
def abstractTasks (r : Run) (fragments : FragmentSet) : List AbstractTask :=
  fragments.flatMap fun (fragment, descriptor) =>
    (Dict.values r.classes).map fun c => ⟨⟨fragment, c.key⟩, descriptor⟩

/-- Queue the abstract tasks. -/
def queued (r : Run) (fragments : FragmentSet) : State :=
  let tasks := r.abstractTasks fragments
  { r.fresh with
    backlog := tasks.map .abstractTask
    pendingAbstract := tasks.length }

end Run
end TaskGen
