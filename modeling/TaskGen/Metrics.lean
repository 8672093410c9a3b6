import TaskGen.Decimal.Binary
import TaskGen.Dict

namespace TaskGen

/-- A length of time in nanoseconds. -/
structure Duration where
  nanos : Nat
  deriving DecidableEq, Repr

namespace Duration

def ofSeconds (seconds nanos : Nat) : Duration := ⟨seconds * 1000000000 + nanos⟩

def ofMillis (millis : Nat) : Duration := ⟨millis * 1000000⟩

def plus (a b : Duration) : Duration := ⟨a.nanos + b.nanos⟩

/-- From `b` to `a`, nothing if `b` is the later one. -/
def minus (a b : Duration) : Duration := ⟨a.nanos - b.nanos⟩

def le (a b : Duration) : Bool := a.nanos ≤ b.nanos

def seconds (d : Duration) : Nat := d.nanos / 1000000000

def subsecond (d : Duration) : Nat := d.nanos % 1000000000

/-- The whole nanoseconds of a double, from 0 to `2 ^ 64 - 1`. -/
def ofFloat (x : Float) : Duration :=
  match Decimal.Binary.ofFloat? x with
  | some (negative, size) => ⟨if negative then 0 else min size.floor (UInt64.size - 1)⟩
  | none => ⟨if 0 < x then UInt64.size - 1 else 0⟩

end Duration

/-- Numbers about a run. -/
structure Metrics where
  /-- How many items of each kind are completed. -/
  completed : Dict Nat
  /-- The mean time from admission to completion for each kind. -/
  averages : Dict Duration
  /-- The most items that were under way at once. -/
  peak : Nat
  /-- How long the run took, once it is over. -/
  elapsed : Option Duration

namespace Metrics

def empty : Metrics := ⟨[], [], 0, none⟩

def abstractKind : String := "abstract"

def taskKind : String := "task"

/-- The mean of `count` durations, from the mean of all but the last one.  It is computed
in doubles. -/
def nextAverage (previous last : Duration) (count : Nat) : Duration :=
  if count = 1 then last
  else
    let before := Float.ofNat previous.nanos
    .ofFloat (before + (Float.ofNat last.nanos - before) / Float.ofNat count)

def recordCompletion (m : Metrics) (kind : String) (duration : Duration) : Metrics :=
  let count := (Dict.find? m.completed kind).getD 0 + 1
  let previous := (Dict.find? m.averages kind).getD ⟨0⟩
  { m with
    completed := Dict.insert m.completed kind count
    averages := Dict.insert m.averages kind (nextAverage previous duration count) }

def observeInFlight (m : Metrics) (count : Nat) : Metrics := { m with peak := max m.peak count }

def finish (m : Metrics) (elapsed : Duration) : Metrics := { m with elapsed := some elapsed }

end Metrics
end TaskGen
