import TaskGen.Proofs.Config
import TaskGen.Proofs.Escalation
import TaskGen.Proofs.Escalation.Scaling

/-!
Which clock stops a task that was given more CPU time.  Its wall time is lifted to the CPU time
before both are cut at the ceiling, each at its own axis, so the wall time stays behind where the
ceiling allows more CPU time than wall time.
-/

namespace TaskGen
namespace Escalation

variable {p : Escalation} {current : Limits}

/-- The limits of a task that ran out of one resource after another. -/
def reached (p : Escalation) (resources : List Resource) : Limits :=
  resources.foldl p.escalate p.defaults

theorem reached_concat (p : Escalation) (resources : List Resource) (resource : Resource) :
    p.reached (resources ++ [resource]) = p.escalate (p.reached resources) resource := by
  rw [reached, List.foldl_concat]
  rfl

theorem cpuTime_escalate (p : Escalation) (current : Limits) :
    (p.escalate current .cpuTime).cpuTime =
      max current.cpuTime (min (p.scaled current .cpuTime) p.ceiling.cpuTime) :=
  Nat.max_comm _ _

theorem wallTime_escalate (below : p.ceiling.dominates current = true) :
    (p.escalate current .cpuTime).wallTime =
      max current.wallTime (min (p.scaled current .cpuTime) p.ceiling.wallTime) := by
  rw [Limits.dominates_iff] at below
  simp only [escalate, stretch, scaled, Limits.cappedBy, Limits.raisedTo]
  omega

/-- The wall time keeps up if the new CPU time fits under the ceiling's wall time, unless it was
behind before and the product is rounded to less than the CPU time that was scaled. -/
theorem wall_keeps_up_iff (below : p.ceiling.dominates current = true) :
    (p.escalate current .cpuTime).cpuTime ≤ (p.escalate current .cpuTime).wallTime ↔
      (p.escalate current .cpuTime).cpuTime ≤ p.ceiling.wallTime ∧
        (current.cpuTime ≤ current.wallTime ∨
          current.cpuTime ≤ p.scaled current .cpuTime) := by
  rw [cpuTime_escalate, wallTime_escalate below]
  rw [Limits.dominates_iff] at below
  omega

/-! ### Behind only at the ceiling -/

/-- The wall time is behind the CPU time only where it has come to the ceiling. -/
def Abreast (p : Escalation) (l : Limits) : Prop :=
  min l.cpuTime p.ceiling.wallTime ≤ l.wallTime

theorem abreast_escalate (below : p.ceiling.dominates current = true)
    (h : p.Abreast current) (resource : Resource) : p.Abreast (p.escalate current resource) := by
  unfold Abreast at h ⊢
  have hgrown := grownIn_escalateBy below p.scaled resource
  rw [escalateBy_scaled] at hgrown
  cases resource with
  | memory => rwa [hgrown.cpuTime (by simp), hgrown.wallTime rfl]
  | cpuTime =>
    rw [cpuTime_escalate, wallTime_escalate below]
    omega
  | wallTime =>
    have hwall := (Limits.dominates_iff.mp hgrown.dominates).2.2.1
    rw [hgrown.cpuTime (by simp)]
    exact Nat.le_trans h hwall

theorem ceiling_dominates_reached (below : p.ceiling.dominates p.defaults = true)
    (resources : List Resource) : p.ceiling.dominates (p.reached resources) = true := by
  induction resources using List.reverseRecOn with
  | nil => exact below
  | append_singleton resources resource ih =>
    rw [reached_concat]
    exact ceiling_dominates_escalate ih resource

theorem abreast_reached (below : p.ceiling.dominates p.defaults = true)
    (h : p.defaults.cpuTime ≤ p.defaults.wallTime) (resources : List Resource) :
    p.Abreast (p.reached resources) := by
  induction resources using List.reverseRecOn with
  | nil => exact Nat.le_trans (Nat.min_le_left _ _) h
  | append_singleton resources resource ih =>
    rw [reached_concat]
    exact abreast_escalate (ceiling_dominates_reached below resources) ih resource

theorem Abreast.keeps_up_iff (below : p.ceiling.dominates current = true)
    (h : p.Abreast current) :
    current.cpuTime ≤ current.wallTime ↔ current.cpuTime ≤ p.ceiling.wallTime := by
  rw [Limits.dominates_iff] at below
  unfold Abreast at h
  omega

/-- First attempts have no less wall time than CPU time, or the CPU time is scaled to no less than
it is: the factor is a number, and doubles hold the CPU time exactly. -/
def Orderly (p : Escalation) (current : Limits) : Prop :=
  p.defaults.cpuTime ≤ p.defaults.wallTime ∨
    p.timeFactor.isNaN = false ∧ current.cpuTime < 2 ^ 53

/-- What becomes of the two clocks of a task that runs out of CPU time, after whatever it ran out of
before. -/
structure Clocks (p : Escalation) (current : Limits) : Prop where
  /-- The wall time keeps up exactly under these conditions. -/
  keeps_up_iff :
    (p.escalate current .cpuTime).cpuTime ≤ (p.escalate current .cpuTime).wallTime ↔
      (p.escalate current .cpuTime).cpuTime ≤ p.ceiling.wallTime ∧
        (current.cpuTime ≤ current.wallTime ∨ current.cpuTime ≤ p.scaled current .cpuTime)
  /-- Then the ceiling alone decides. -/
  ceiling_decides : p.Orderly current →
    ((p.escalate current .cpuTime).cpuTime ≤ (p.escalate current .cpuTime).wallTime ↔
      (p.escalate current .cpuTime).cpuTime ≤ p.ceiling.wallTime)
  /-- If the ceiling has no less wall time than CPU time either, the wall time is never behind. -/
  never_behind : p.Orderly current → p.ceiling.cpuTime ≤ p.ceiling.wallTime →
    (p.escalate current .cpuTime).cpuTime ≤ (p.escalate current .cpuTime).wallTime

theorem clocks_of_accepted {c : Config} (accepted : c.fault? = none) (resources : List Resource) :
    Clocks c.escalation (c.escalation.reached resources) := by
  have hchecked := (Config.fault?_eq_none_iff c).mp accepted
  have hdefaults : c.escalation.ceiling.dominates c.escalation.defaults = true :=
    Limits.dominates_iff_along.mpr hchecked.ceiling
  have hbelow := ceiling_dominates_reached hdefaults resources
  have hnext := ceiling_dominates_escalate hbelow .cpuTime
  have hdecides : c.escalation.Orderly (c.escalation.reached resources) → (_ ↔ _) := fun h => by
    rcases h with ordered | ⟨hnumber, hexact⟩
    · have habreast := abreast_reached hdefaults ordered resources
      exact (abreast_escalate hbelow habreast .cpuTime).keeps_up_iff hnext
    · have hfactor := hchecked.timeFactor.resolve_right (Bool.eq_false_iff.mp hnumber)
      exact (wall_keeps_up_iff hbelow).trans (and_iff_left (.inr (le_scale hexact hfactor)))
  refine ⟨wall_keeps_up_iff hbelow, hdecides, fun h ordered => (hdecides h).mpr ?_⟩
  exact Nat.le_trans (Limits.dominates_iff.mp hnext).2.1 ordered

def shortWall : String :=
  "specifications_base = \"b\"\nrequirement_specifications = [\"a\"]\n" ++
    "[rescheduling.ceiling]\ncpu_time = 3600\nwall_time = 1800\n"

theorem clocks_of_short_wall : ∃ c, Config.parse (fun _ => none) shortWall = .ok c ∧
    ∀ resources, Clocks c.escalation (c.escalation.reached resources) := by
  have hparsed : (Config.parse (fun _ => none) shortWall).toOption.map (fun _ => ()) =
      some () := by decide +kernel
  obtain ⟨c, hc, _⟩ := exists_of_toOption_map hparsed
  exact ⟨c, hc, clocks_of_accepted ((Config.parse_eq_ok_iff _ _ _).mp hc).2⟩

/-- The second time that CPU time runs out it is lifted above the wall time. -/
theorem wall_falls_behind : ∃ c, Config.parse (fun _ => none) shortWall = .ok c ∧
    (c.escalation.escalate (c.escalation.reached [.cpuTime]) .cpuTime).wallTime = 1800 ∧
    (c.escalation.escalate (c.escalation.reached [.cpuTime]) .cpuTime).cpuTime = 3600 := by
  have hparsed : (Config.parse (fun _ => none) shortWall).toOption.map (fun c =>
      c.escalation.escalate (c.escalation.reached [.cpuTime]) .cpuTime) =
        some ⟨1000000000, 3600, 1800, 1⟩ := by decide +kernel
  obtain ⟨c, hc, hlimits⟩ := exists_of_toOption_map hparsed
  exact ⟨c, hc, by rw [hlimits], by rw [hlimits]⟩

end Escalation
end TaskGen
