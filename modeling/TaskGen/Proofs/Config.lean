import TaskGen.Config.Load
import TaskGen.Proofs.Catalog.Loading
import TaskGen.Proofs.Double

/-!
What a configuration that was read can be relied on for: where its ceiling comes from, and what
the checks ask of the settings.  A comparison of doubles is false when one of them is no number,
so a check that turns down what is below 1 lets through what is not comparable with 1.
-/

namespace TaskGen

namespace Limits

open Json

/-- One of the quantities that are limited. -/
inductive Axis where
  | memory
  | cpuTime
  | wallTime
  | cores

def Axis.field : Axis → String
  | .memory => "memory_size"
  | .cpuTime => "cpu_time"
  | .wallTime => "wall_time"
  | .cores => "cpu_cores"

def Axis.most : Axis → Nat
  | .memory => largest
  | .cpuTime => largest
  | .wallTime => largest
  | .cores => mostCores

def along (l : Limits) : Axis → Nat
  | .memory => l.memory
  | .cpuTime => l.cpuTime
  | .wallTime => l.wallTime
  | .cores => l.cores

theorem dominates_iff_along {a b : Limits} :
    a.dominates b = true ↔ ∀ axis, b.along axis ≤ a.along axis := by
  rw [dominates_iff]
  constructor
  · rintro ⟨hmemory, hcpu, hwall, hcores⟩ axis
    cases axis <;> assumption
  · exact fun h => ⟨h .memory, h .cpuTime, h .wallTime, h .cores⟩

end Limits

namespace Config

open Json Document

def names : List String :=
  ["sub_job_id", "main_working_directory", "keep_intermediate_files",
    "single_environment_model_per_fragment", "specifications_base",
    "requirement_specifications", "fragments_file", "scheduling", "resource_limits",
    "rescheduling", "plugins"]

/-- The text gives the settings, but for those that variables override. -/
def Loaded (env : Environment) (text : String) (c : Config) : Prop :=
  ∃ given, (Toml.ofString? text).bind ofDocument? = some given ∧ c = given.override env

structure Checked (factor : Float → Prop) (c : Config) : Prop where
  tasks : 1 ≤ c.scheduling.maxSolvingTasks
  patterns : c.patterns ≠ []
  attempts : 1 ≤ c.rescheduling.maxAttempts
  memoryFactor : factor c.rescheduling.memoryFactor
  timeFactor : factor c.rescheduling.timeFactor
  ceiling : ∀ axis, c.limits.along axis ≤ c.rescheduling.ceiling.along axis

theorem Checked.mono {factor factor' : Float → Prop} {c : Config} (h : c.Checked factor)
    (hfactor : ∀ x, factor x → factor' x) : c.Checked factor' :=
  { h with memoryFactor := hfactor _ h.memoryFactor, timeFactor := hfactor _ h.timeFactor }

theorem fault?_eq_none_iff (c : Config) :
    c.fault? = none ↔ c.Checked fun factor => 1 ≤ factor ∨ factor.isNaN = true := by
  have hceiling : (!c.rescheduling.ceiling.dominates c.limits) = false ↔
      ∀ axis, c.limits.along axis ≤ c.rescheduling.ceiling.along axis := by
    rw [Bool.not_eq_false', Limits.dominates_iff_along]
  unfold fault?
  dsimp only
  constructor
  · intro h
    split_ifs at h with htasks hpatterns hattempts hfactors hlimits
    obtain ⟨hmemory, htime⟩ := not_or.mp hfactors
    exact {
      tasks := Nat.one_le_iff_ne_zero.mpr htasks
      patterns := fun hnil => hpatterns (by rw [hnil]; rfl)
      attempts := Nat.one_le_iff_ne_zero.mpr hattempts
      memoryFactor := (Double.not_lt_one_iff _).mp hmemory
      timeFactor := (Double.not_lt_one_iff _).mp htime
      ceiling := hceiling.mp (Bool.eq_false_iff.mpr hlimits) }
  · intro h
    have hpatterns : ¬ c.patterns.isEmpty = true := fun hempty =>
      h.patterns (List.isEmpty_iff.mp hempty)
    have hfactors : ¬ (c.rescheduling.memoryFactor < 1 ∨ c.rescheduling.timeFactor < 1) :=
      not_or.mpr ⟨(Double.not_lt_one_iff _).mpr h.memoryFactor,
        (Double.not_lt_one_iff _).mpr h.timeFactor⟩
    rw [if_neg (Nat.one_le_iff_ne_zero.mp h.tasks), if_neg hpatterns,
      if_neg (Nat.one_le_iff_ne_zero.mp h.attempts), if_neg hfactors,
      if_neg (Bool.eq_false_iff.mp (hceiling.mpr h.ceiling))]

theorem parse_eq_ok_iff (env : Environment) (text : String) (c : Config) :
    parse env text = .ok c ↔ Loaded env text c ∧ c.fault? = none := by
  have hcheck (given : Config) : check given = .ok c ↔ c = given ∧ c.fault? = none := by
    unfold check
    cases hfault : given.fault? with
    | none =>
      constructor
      · rintro ⟨⟩
        exact ⟨rfl, hfault⟩
      · rintro ⟨rfl, -⟩
        rfl
    | some fault =>
      constructor
      · intro h
        cases h
      · rintro ⟨rfl, hnone⟩
        rw [hfault] at hnone
        cases hnone
  unfold parse Loaded
  cases (Toml.ofString? text).bind ofDocument? with
  | none => simp
  | some given => simpa using hcheck (given.override env)

end Config
end TaskGen
