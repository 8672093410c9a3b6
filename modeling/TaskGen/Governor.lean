import TaskGen.Escalation
import TaskGen.Task

/-!
Only a task that ran out of a resource is ever tried again.  Every other failure is final,
however many attempts are left.
-/

namespace TaskGen

/-- What is known about the attempts at one task. -/
structure TaskRecord where
  attempt : Nat
  limits : Limits
  /-- The statuses of all attempts, the oldest one first. -/
  history : List Status
  final : Option FinalStatus
  deriving DecidableEq, Repr

/-- What a solution means for its task. -/
inductive Verdict where
  | final (status : FinalStatus)
  | reschedulable
  deriving DecidableEq, Repr

/-- The attempts at all tasks that have not ended. -/
structure Governor where
  policy : Escalation
  records : List (TaskId × TaskRecord)
  /-- How many further attempts have been granted. -/
  rescheduled : Nat

namespace Governor

def ofPolicy (policy : Escalation) : Governor := ⟨policy, [], 0⟩

def record? (g : Governor) (id : TaskId) : Option TaskRecord := g.records.lookup id

def put (g : Governor) (id : TaskId) (r : TaskRecord) : Governor :=
  { g with records := (id, r) :: g.records.filter fun p => p.1 ≠ id }

/-- Drop what is known about a task. -/
def forget (g : Governor) (id : TaskId) : Governor :=
  { g with records := g.records.filter fun p => p.1 ≠ id }

def freshRecord (g : Governor) : TaskRecord := ⟨0, g.policy.defaults, [], none⟩

/-- The record of a task, a new one if there is none. -/
def recordOf (g : Governor) (id : TaskId) : TaskRecord := (g.record? id).getD g.freshRecord

/-- The limits for the next attempt.  From now on there is a record of the task. -/
def limitsFor (g : Governor) (id : TaskId) : Limits × Governor :=
  let r := g.recordOf id
  (r.limits, g.put id r)

def attempt (g : Governor) (id : TaskId) : Nat := ((g.record? id).map (·.attempt)).getD 0

def history (g : Governor) (id : TaskId) : List Status :=
  ((g.record? id).map (·.history)).getD []

def judge (maxAttempts attempt : Nat) : Status → Verdict
  | .finished => .final .finished
  | .exhausted _ => if attempt + 1 < maxAttempts then .reschedulable else .final .failed
  | _ => .final .failed

/-- Take down how the current attempt at a task ended. -/
def addSolution (g : Governor) (id : TaskId) (status : Status) : Verdict × Governor :=
  let r := g.recordOf id
  let verdict := judge g.policy.maxAttempts r.attempt status
  let final :=
    match verdict with
    | .final s => some s
    | .reschedulable => r.final
  (verdict, g.put id { r with history := r.history ++ [status], final })

/-- Go on to the next attempt at a task, if its last one ran out of something and there is
one left.  A task that is refused has failed for good. -/
def reschedule (g : Governor) (id : TaskId) : Option Nat × Governor :=
  match g.record? id with
  | none => (none, g)
  | some r =>
    if r.final.isSome then (none, g)
    else
      match r.history.getLast? with
      | some (.exhausted resource) =>
        if r.attempt + 1 < g.policy.maxAttempts then
          let next := { r with
            attempt := r.attempt + 1, limits := g.policy.escalate r.limits resource }
          (some next.attempt, { g.put id next with rescheduled := g.rescheduled + 1 })
        else (none, g.put id { r with final := some .failed })
      | _ => (none, g.put id { r with final := some .failed })

end Governor
end TaskGen
