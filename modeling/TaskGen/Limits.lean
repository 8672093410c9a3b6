import TaskGen.Json.Decode

namespace TaskGen

/-- What one attempt at a task may use: bytes of memory, seconds of CPU time and of wall
time, and CPU cores. -/
structure Limits where
  memory : Nat
  cpuTime : Nat
  wallTime : Nat
  cores : Nat
  deriving DecidableEq, Repr

namespace Limits

/-- The limits of a first attempt, where the configuration does not give any. -/
def standard : Limits := ⟨1000000000, 900, 1800, 1⟩

/-- The limits that no attempt may pass, where the configuration does not give any. -/
def standardCeiling : Limits := ⟨8000000000, 3600, 7200, 4⟩

/-- `a` allows at least as much as `b` in everything. -/
def dominates (a b : Limits) : Bool :=
  b.memory ≤ a.memory && b.cpuTime ≤ a.cpuTime && b.wallTime ≤ a.wallTime && b.cores ≤ a.cores

/-- The lower one of both in everything. -/
def cappedBy (a ceiling : Limits) : Limits where
  memory := min a.memory ceiling.memory
  cpuTime := min a.cpuTime ceiling.cpuTime
  wallTime := min a.wallTime ceiling.wallTime
  cores := min a.cores ceiling.cores

/-- The higher one of both in everything. -/
def raisedTo (a floor : Limits) : Limits where
  memory := max a.memory floor.memory
  cpuTime := max a.cpuTime floor.cpuTime
  wallTime := max a.wallTime floor.wallTime
  cores := max a.cores floor.cores

theorem dominates_iff {a b : Limits} : a.dominates b = true ↔
    b.memory ≤ a.memory ∧ b.cpuTime ≤ a.cpuTime ∧ b.wallTime ≤ a.wallTime ∧ b.cores ≤ a.cores := by
  simp [dominates, and_assoc]

theorem dominates_refl (a : Limits) : a.dominates a = true := by simp [dominates]

theorem dominates_trans {a b c : Limits} (hab : a.dominates b = true)
    (hbc : b.dominates c = true) : a.dominates c = true := by
  rw [dominates_iff] at *
  omega

theorem dominates_cappedBy (a ceiling : Limits) : ceiling.dominates (a.cappedBy ceiling) = true := by
  simp only [dominates_iff, cappedBy]
  omega

theorem raisedTo_dominates (a floor : Limits) : (a.raisedTo floor).dominates floor = true := by
  simp only [dominates_iff, raisedTo]
  omega

def text (l : Limits) : String :=
  "mem=" ++ toString (l.memory / 1000000) ++ "MB cpu=" ++ toString l.cpuTime ++ "s wall=" ++
    toString l.wallTime ++ "s cores=" ++ toString l.cores

def toJson (l : Limits) : Json.Value :=
  .object [("cpu_cores", .nat l.cores), ("cpu_time", .nat l.cpuTime),
    ("memory_size", .nat l.memory), ("wall_time", .nat l.wallTime)]

/-- The largest size and the largest number of cores. -/
def largest : Nat := UInt64.size - 1

def mostCores : Nat := UInt32.size - 1

def fields : List String := ["memory_size", "cpu_time", "wall_time", "cpu_cores"]

open Json in
/-- Limits of which some may be left out. -/
def ofDocument? (d : Document) : Option Limits := do
  let known ← d.record? fields
  some {
    memory := ← optional? known "memory_size" standard.memory (Document.nat? largest)
    cpuTime := ← optional? known "cpu_time" standard.cpuTime (Document.nat? largest)
    wallTime := ← optional? known "wall_time" standard.wallTime (Document.nat? largest)
    cores := ← optional? known "cpu_cores" standard.cores (Document.nat? mostCores) }

open Json in
/-- A ceiling of which some parts may be left out or null.  They are then those of the
standard ceiling and not those of a first attempt. -/
def ceilingOfDocument? (d : Document) : Option Limits := do
  let known ← d.record? fields
  let axis := fun name most => optional? known name none (Document.nullable? (Document.nat? most))
  some {
    memory := (← axis "memory_size" largest).getD standardCeiling.memory
    cpuTime := (← axis "cpu_time" largest).getD standardCeiling.cpuTime
    wallTime := (← axis "wall_time" largest).getD standardCeiling.wallTime
    cores := (← axis "cpu_cores" mostCores).getD standardCeiling.cores }

end Limits
end TaskGen
