import TaskGen.Run.Admission
import TaskGen.Worker

/-!
A run with one worker.  The worker takes the items in the order in which they were admitted,
so nothing depends on who is faster.
-/

namespace TaskGen
namespace Run

variable {σ : Type}

/-- Why there is no report. -/
inductive Error where
  /-- The main directory cannot be made. -/
  | io
  /-- The fragments never came. -/
  | neverDelivered
  deriving DecidableEq, Repr

def Error.message : Error → String
  | .io => "I/O error"
  | .neverDelivered => "fragment descriptions were never delivered"

/-! ### Effects -/

/-- Directories that cannot be removed stay. -/
def perform (w : World σ) : Effect → World σ
  | .release dir =>
    match w.files.removeDir dir with
    | .ok files => { w with files }
    | .error _ => w
  | _ => w

/-- Do what the state asks for beyond an earlier one. -/
def settle (before after : State) (w : World σ) : World σ :=
  (after.effects.drop before.effects.length).foldl perform w

/-- Go to another state with its effects. -/
def move (s : State) (f : State → State) (w : World σ) : State × World σ :=
  let after := f s
  (after, settle s after w)

def handle (r : Run) (s : State) (c : Completion) (w : World σ) : State × World σ :=
  move s (r.onCompletion w.clock c) w

def handleAll (r : Run) (s : State) (cs : List Completion) (w : World σ) : State × World σ :=
  cs.foldl (fun p c => r.handle p.1 c p.2) (s, w)

/-! ### The end -/

/-- When those who are still at work are stopped. -/
def deadline (r : Run) (w : World σ) : Duration :=
  (w.stopped.getD w.clock).plus (.ofSeconds r.config.scheduling.graceSeconds 0)

/-- Let the worker finish what was admitted, as long as there is time.  Nothing new is
begun, so only the item in its hands can take any. -/
def drain (r : Run) (k : Worker σ) : List WorkItem → State → World σ → State × World σ
  | [], s, w => (s, w)
  | item :: rest, s, w =>
    match k.serve item w with
    | (none, w) => (s, w)
    | (some c, w) =>
      let (s, w) := r.handle s c w
      drain r k rest s w

/-- Give up everything that has not ended. -/
def abandon (r : Run) (s : State) (w : World σ) : State × World σ :=
  move s (fun s => r.dropWaiting (r.strand w.clock s)) w

/-- Cancel a run.  `last` is what became of the item in the hands of the worker: a completion
that comes too late is as bad as none, and the worker does not get to the items behind it. -/
def cancel (r : Run) (k : Worker σ) (last : Option Completion) (admitted : List WorkItem)
    (s : State) (w : World σ) : State × World σ :=
  let s := beginCancel s
  match last with
  | none => r.abandon s w
  | some c =>
    if w.clock.le (r.deadline w) then
      let (s, w) := r.handle s c w
      let (s, w) := r.drain k admitted s w
      r.abandon s w
    else r.abandon s w

/-! ### The loop -/

/-- Admit, let the worker take an item, deal with its completion, and so on.  There is no
result if the worker hangs and nobody stops the run, or if the turns do not suffice. -/
def loop (r : Run) (k : Worker σ) : Nat → State → Channel → World σ → Option (State × World σ)
  | 0, _, _, _ => none
  | turns + 1, s, c, w =>
    let a := r.admitWaiting w.clock s c
    let (s, w) := r.handleAll a.state a.refused w
    if s.isDone then some (s, w)
    else
      match a.channel.items with
      | [] => none
      | item :: rest =>
        let (last, w) := k.serve item w
        if w.stopped.isSome then some (r.cancel k last rest s w)
        else
          match last with
          | none => none
          | some completion =>
            let (s, w) := r.handle s completion w
            loop r k turns s { a.channel with items := rest } w

/-- Without the fragments the run is over before it began. -/
def cancelledEarly (r : Run) (now : Duration) : State :=
  let s := beginCancel r.fresh
  { s with report := { s.report with metrics := s.report.metrics.finish now } }

/-- A run that was stopped before its first turn. -/
def stoppedEarly (r : Run) (s : State) (w : World σ) : State × World σ :=
  if s.isDone then (s, w) else r.abandon (beginCancel s) w

/-- Check all fragments. -/
def runFragments (r : Run) (k : Worker σ) (turns : Nat) (fragments : FragmentSet) (w : World σ) :
    Option (Except Error State × World σ) :=
  match w.files.makeDirs r.config.mainDirectory with
  | (files, .error _) => some (.error .io, { w with files })
  | (files, .ok ()) => do
    let w := { w with files }
    let s := r.start fragments
    let (s, w) ←
      if w.stopped.isSome then some (r.stoppedEarly s w) else r.loop k turns s r.channel w
    some (.ok (finish w.clock s), w)

/-- What came of the wait for the fragments. -/
inductive Delivery where
  | fragments (set : FragmentSet)
  | dropped
  /-- The end of the run was asked for before they came. -/
  | cancelled

def run (r : Run) (k : Worker σ) (turns : Nat) (d : Delivery) (w : World σ) :
    Option (Except Error State × World σ) :=
  match d with
  | .fragments set => r.runFragments k turns set w
  | .dropped => some (.error .neverDelivered, w)
  | .cancelled => some (.ok (r.cancelledEarly w.clock), w)

/-- The worker of a run. -/
def worker (r : Run) (registry : Registry (Runner σ)) (session : Session σ) (patience : Nat) :
    Worker σ where
  registry
  session
  classes := r.classes
  workspace := r.workspace
  pause := .ofMillis r.config.scheduling.solutionPollMillis
  patience

end Run
end TaskGen
