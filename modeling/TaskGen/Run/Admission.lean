import TaskGen.Run.Control

/-!
The loop admits items while fewer than the limit are under way.  An item that is admitted
goes into the channel to the workers.
-/

namespace TaskGen
namespace Run

/-- The way to the workers. -/
structure Channel where
  items : List WorkItem
  capacity : Nat
  /-- No worker will ever take an item again. -/
  closed : Bool

inductive Sent where
  | taken (c : Channel)
  | full
  | refused

def Channel.send (c : Channel) (item : WorkItem) : Sent :=
  if c.closed then .refused
  else if c.items.length < c.capacity then .taken { c with items := c.items ++ [item] }
  else .full

/-- What the loop has after it admitted what it could. -/
structure Admission where
  state : State
  channel : Channel
  /-- The completions of items that no worker will ever take. -/
  refused : List Completion

/-- Admit at most a number of items.  An item for which there is no room goes back to the
front. -/
def admitUpTo (limit : Nat) (now : Duration) : Nat → State → Channel → Admission
  | 0, s, c => ⟨s, c, []⟩
  | n + 1, s, c =>
    if s.inFlight.length < limit then
      match s.next? with
      | none => ⟨s, c, []⟩
      | some (item, rest) =>
        match c.send item with
        | .taken c => admitUpTo limit now n (rest.enter item now) c
        | .full => ⟨{ rest with backlog := item :: rest.backlog }, c, []⟩
        | .refused =>
          let a := admitUpTo limit now n (rest.enter item now) c
          { a with refused := .failed item "pending-work channel closed" :: a.refused }
    else ⟨s, c, []⟩

/-- Admit what can be admitted.  Every round takes an item from those that wait, so there
are no more rounds than that. -/
def admitWaiting (r : Run) (now : Duration) (s : State) (c : Channel) : Admission :=
  let a := admitUpTo r.config.scheduling.maxSolvingTasks now s.waiting s c
  let metrics := a.state.report.metrics.observeInFlight a.state.inFlight.length
  { a with state := { a.state with report := { a.state.report with metrics } } }

/-- The channel at the beginning. -/
def channel (r : Run) : Channel := ⟨[], r.config.scheduling.maxSolvingTasks, false⟩

end Run
end TaskGen
