import TaskGen.Instant
import TaskGen.Json.Decode
import TaskGen.Json.Reader

namespace TaskGen

/-- What an attempt can run out of. -/
inductive Resource where
  | memory
  | cpuTime
  | wallTime
  deriving DecidableEq, Repr

namespace Resource

def all : List Resource := [.memory, .cpuTime, .wallTime]

def name : Resource → String
  | .memory => "memory"
  | .cpuTime => "cpu-time"
  | .wallTime => "wall-time"

def ofName? (name : String) : Option Resource := all.find? fun r => r.name == name

def ofDocument? (d : Json.Document) : Option Resource := do ofName? (← d.choice?)

end Resource

/-- How an attempt ended. -/
inductive Status where
  | finished
  | failed
  | exhausted (resource : Resource)
  | crashed
  deriving DecidableEq, Repr

/-- The kinds of statuses, by which a status is read. -/
inductive Status.Kind where
  | finished
  | failed
  | exhausted
  | crashed
  deriving DecidableEq, Repr

namespace Status

def isExhausted : Status → Bool
  | .exhausted _ => true
  | _ => false

def kind : Status → Kind
  | .finished => .finished
  | .failed => .failed
  | .exhausted _ => .exhausted
  | .crashed => .crashed

def Kind.all : List Kind := [.finished, .failed, .exhausted, .crashed]

def Kind.name : Kind → String
  | .finished => "finished"
  | .failed => "failed"
  | .exhausted => "resource-exhausted"
  | .crashed => "crashed"

open Json in
/-- A kind is given by its name or by its place in the list. -/
def Kind.ofDocument? : Document → Option Kind
  | .string s => do
    let name ← s
    all.find? fun k => k.name == name
  | .number (some (.int n)) => if 0 ≤ n then all[n.toNat]? else none
  | _ => none

/-- The members of an object that tell the status. -/
def fields (s : Status) : Dict Json.Value :=
  match s with
  | .exhausted r => [("resource", .string r.name), ("status", .string s.kind.name)]
  | _ => [("status", .string s.kind.name)]

end Status

/-- What the scheduler says about an attempt. -/
structure Solution where
  status : Status
  diagnostics : Json.Value
  /-- Not given means now. -/
  reportedAt : Option Instant

namespace Solution

def ofStatus (status : Status) : Solution := ⟨status, .null, none⟩

def finished : Solution := ofStatus .finished

/-- A stage failed, so nothing was submitted. -/
def stageFailed (reason : String) : Solution :=
  ⟨.failed, .object [("stage error", .string reason)], none⟩

/-- The work itself broke down or was given up. -/
def crashed (reason : String) : Solution :=
  ⟨.crashed, .object [("worker error", .string reason)], none⟩

open Json Document

/-- The resource counts only where something is exhausted.  Everywhere else it is one of
the members that nobody asks for. -/
def status? (kind : Status.Kind) (d : Document) : Option Status :=
  match kind with
  | .finished => some .finished
  | .failed => some .failed
  | .crashed => some .crashed
  | .exhausted => do
    let (known, _) ← d.openRecord? ["resource"]
    some (.exhausted (← required? known "resource" Resource.ofDocument?))

def ofDocument? (d : Document) : Option Solution := do
  let (known, _) ← d.openRecord? ["status", "diagnostics", "reported_at"]
  let diagnostics ← optional? known "diagnostics" .null value?
  let reportedAt ← optional? known "reported_at" none fun d => do
    some (some (← Instant.ofString? (← d.string?)))
  let kind ← required? known "status" Status.Kind.ofDocument?
  some ⟨← status? kind d, diagnostics, reportedAt⟩

def ofString? (text : String) : Option Solution := do ofDocument? (← Document.ofString? text)

def toJson (s : Solution) : Value :=
  let reported := s.reportedAt.toList.map fun i => ("reported_at", Value.string i.text)
  .object (Dict.extend s.status.fields (("diagnostics", s.diagnostics) :: reported))

end Solution

/-- How a requirement ended. -/
inductive FinalStatus where
  | finished
  | failed
  deriving DecidableEq, Repr

def FinalStatus.name : FinalStatus → String
  | .finished => "finished"
  | .failed => "failed"

end TaskGen
