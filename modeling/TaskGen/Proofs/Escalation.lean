import TaskGen.Escalation

/-!
How limits grow, whatever the scaling gives.  The factors are doubles, and nothing is relied on
that their products are.
-/

namespace TaskGen

namespace Limits

/-- After running out of `resource` the limits `b` differ from `a` in nothing but this resource,
and in the wall time if it was CPU time. -/
structure GrownIn (resource : Resource) (a b : Limits) : Prop where
  dominates : b.dominates a = true
  cores : b.cores = a.cores
  memory : resource ≠ .memory → b.memory = a.memory
  cpuTime : resource ≠ .cpuTime → b.cpuTime = a.cpuTime
  wallTime : resource = .memory → b.wallTime = a.wallTime

end Limits

namespace Escalation

def scaled (p : Escalation) (current : Limits) : Resource → Nat
  | .memory => scale current.memory p.memoryFactor
  | .cpuTime => scale current.cpuTime p.timeFactor
  | .wallTime => scale current.wallTime p.timeFactor

def stretchTo (size : Nat) (current : Limits) : Resource → Limits
  | .memory => { current with memory := size }
  | .cpuTime => { current with cpuTime := size, wallTime := max current.wallTime size }
  | .wallTime => { current with wallTime := size }

def escalateBy (p : Escalation) (scaling : Limits → Resource → Nat) (current : Limits)
    (resource : Resource) : Limits :=
  ((stretchTo (scaling current resource) current resource).cappedBy p.ceiling).raisedTo current

theorem escalateBy_scaled (p : Escalation) : p.escalateBy p.scaled = p.escalate := by
  funext current resource
  cases resource <;> rfl

variable {p : Escalation} {current : Limits}

theorem ceiling_dominates_escalateBy (below : p.ceiling.dominates current = true)
    (scaling : Limits → Resource → Nat) (resource : Resource) :
    p.ceiling.dominates (p.escalateBy scaling current resource) = true := by
  have hcapped := Limits.dominates_cappedBy
    (stretchTo (scaling current resource) current resource) p.ceiling
  rw [escalateBy]
  simp only [Limits.dominates_iff, Limits.raisedTo] at below hcapped ⊢
  omega

theorem ceiling_dominates_escalate (below : p.ceiling.dominates current = true)
    (resource : Resource) : p.ceiling.dominates (p.escalate current resource) = true := by
  rw [← escalateBy_scaled]
  exact ceiling_dominates_escalateBy below p.scaled resource

/-- The cap changes no axis that is not stretched, because the limits were below the ceiling. -/
theorem grownIn_escalateBy (below : p.ceiling.dominates current = true)
    (scaling : Limits → Resource → Nat) (resource : Resource) :
    Limits.GrownIn resource current (p.escalateBy scaling current resource) := by
  have hdominates := Limits.raisedTo_dominates
    ((stretchTo (scaling current resource) current resource).cappedBy p.ceiling) current
  rw [Limits.dominates_iff] at below
  obtain ⟨hmemory, hcpu, hwall, hcores⟩ := below
  cases resource with
  | memory =>
    refine ⟨hdominates, ?_, fun h => absurd rfl h, fun _ => ?_, fun _ => ?_⟩ <;>
      simp only [escalateBy, stretchTo, Limits.cappedBy, Limits.raisedTo] <;> omega
  | cpuTime =>
    refine ⟨hdominates, ?_, fun _ => ?_, fun h => absurd rfl h, fun h => by cases h⟩ <;>
      simp only [escalateBy, stretchTo, Limits.cappedBy, Limits.raisedTo] <;> omega
  | wallTime =>
    refine ⟨hdominates, ?_, fun _ => ?_, fun _ => ?_, fun h => by cases h⟩ <;>
      simp only [escalateBy, stretchTo, Limits.cappedBy, Limits.raisedTo] <;> omega

end Escalation

end TaskGen
