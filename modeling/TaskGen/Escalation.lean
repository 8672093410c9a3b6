import TaskGen.Decimal.Binary
import TaskGen.Limits
import TaskGen.Solution

namespace TaskGen

/-- How limits grow from one attempt to the next. -/
structure Escalation where
  /-- The limits of first attempts. -/
  defaults : Limits
  ceiling : Limits
  memoryFactor : Float
  timeFactor : Float
  /-- How often a task may be tried, the first attempt included. -/
  maxAttempts : Nat

namespace Escalation

/-- The product rounded up, from 0 to the largest size.  A product that is no number
is 0. -/
def scale (value : Nat) (factor : Float) : Nat :=
  let product := Float.ofNat value * factor
  match Decimal.Binary.ofFloat? product with
  | some (negative, size) => if negative then 0 else min size.ceil Limits.largest
  | none => if 0 < product then Limits.largest else 0

/-- More of what was exhausted.  A task that needs more CPU time needs that much wall time
as well, or it would next be stopped by the other clock. -/
def stretch (p : Escalation) (current : Limits) : Resource → Limits
  | .memory => { current with memory := scale current.memory p.memoryFactor }
  | .cpuTime =>
    let cpu := scale current.cpuTime p.timeFactor
    { current with cpuTime := cpu, wallTime := max current.wallTime cpu }
  | .wallTime => { current with wallTime := scale current.wallTime p.timeFactor }

/-- The limits after running out of `resource`.  They stay below the ceiling where they can,
and they never shrink. -/
def escalate (p : Escalation) (current : Limits) (resource : Resource) : Limits :=
  ((p.stretch current resource).cappedBy p.ceiling).raisedTo current

theorem escalate_dominates (p : Escalation) (current : Limits) (resource : Resource) :
    (p.escalate current resource).dominates current = true := Limits.raisedTo_dominates _ _

end Escalation
end TaskGen
