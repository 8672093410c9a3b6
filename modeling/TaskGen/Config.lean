import TaskGen.Decimal.Layout
import TaskGen.Escalation
import TaskGen.Path
import TaskGen.Toml.Reader

namespace TaskGen

/-- How many items are under way at once, and how long to wait for them. -/
structure Scheduling where
  /-- How many items may be admitted and not yet completed. -/
  maxSolvingTasks : Nat
  /-- The number of workers.  0 is as many as the machine can run at once. -/
  parallelism : Nat
  pollMillis : Nat
  solutionPollMillis : Nat
  /-- How long items under way may still take after a cancellation. -/
  graceSeconds : Nat
  /-- Further attempts wait until no first attempt is left. -/
  deferRescheduling : Bool

/-- How often tasks are tried, and how their limits grow. -/
structure Rescheduling where
  maxAttempts : Nat
  memoryFactor : Float
  timeFactor : Float
  ceiling : Limits

/-- The program that does the work of a stage. -/
structure PluginCommand where
  command : String
  args : List String

/-- The settings of a run. -/
structure Config where
  subJob : String
  mainDirectory : Path
  /-- Directories stay when the work in them is done. -/
  keepFiles : Bool
  /-- Every fragment is expected to have one environment model, so the number of tasks is
  known in advance. -/
  singleModel : Bool
  specificationsBase : Path
  /-- Patterns for the requirements to check. -/
  patterns : List String
  fragmentsFile : Path
  scheduling : Scheduling
  limits : Limits
  rescheduling : Rescheduling
  /-- Programs by the names of stages. -/
  plugins : Dict PluginCommand

namespace Scheduling

open Json Document

def standard : Scheduling := ⟨100, 0, 3000, 1000, 10, true⟩

def ofDocument? (d : Document) : Option Scheduling := do
  let known ← d.record? ["max_solving_tasks", "parallelism", "poll_interval_ms",
    "solution_poll_interval_ms", "shutdown_grace_secs", "defer_rescheduling"]
  let count := fun name default => optional? known name default (nat? Limits.largest)
  some {
    maxSolvingTasks := ← count "max_solving_tasks" standard.maxSolvingTasks
    parallelism := ← count "parallelism" standard.parallelism
    pollMillis := ← count "poll_interval_ms" standard.pollMillis
    solutionPollMillis := ← count "solution_poll_interval_ms" standard.solutionPollMillis
    graceSeconds := ← count "shutdown_grace_secs" standard.graceSeconds
    deferRescheduling :=
      ← optional? known "defer_rescheduling" standard.deferRescheduling bool? }

def toJson (s : Scheduling) : Value :=
  .object [("defer_rescheduling", .bool s.deferRescheduling),
    ("max_solving_tasks", .nat s.maxSolvingTasks), ("parallelism", .nat s.parallelism),
    ("poll_interval_ms", .nat s.pollMillis), ("shutdown_grace_secs", .nat s.graceSeconds),
    ("solution_poll_interval_ms", .nat s.solutionPollMillis)]

end Scheduling

namespace Rescheduling

open Json Document

def standard : Rescheduling := ⟨2, 2, 2, Limits.standardCeiling⟩

/-- The largest number of attempts. -/
def mostAttempts : Nat := UInt32.size - 1

def ofDocument? (d : Document) : Option Rescheduling := do
  let known ← d.record? ["max_attempts", "memory_factor", "time_factor", "ceiling"]
  some {
    maxAttempts := ← optional? known "max_attempts" standard.maxAttempts (nat? mostAttempts)
    memoryFactor := ← optional? known "memory_factor" standard.memoryFactor float?
    timeFactor := ← optional? known "time_factor" standard.timeFactor float?
    ceiling := ← optional? known "ceiling" standard.ceiling Limits.ceilingOfDocument? }

def toJson (r : Rescheduling) : Value :=
  .object [("ceiling", r.ceiling.toJson), ("max_attempts", .nat r.maxAttempts),
    ("memory_factor", .number (.float r.memoryFactor)),
    ("time_factor", .number (.float r.timeFactor))]

/-- Escalation from the given limits of first attempts. -/
def escalation (r : Rescheduling) (defaults : Limits) : Escalation :=
  ⟨defaults, r.ceiling, r.memoryFactor, r.timeFactor, r.maxAttempts⟩

end Rescheduling

namespace PluginCommand

open Json Document

def ofDocument? (d : Document) : Option PluginCommand := do
  let known ← d.record? ["command", "args"]
  some {
    command := ← required? known "command" string?
    args := ← optional? known "args" [] (list? string?) }

def toJson (c : PluginCommand) : Value :=
  .object [("args", .strings c.args), ("command", .string c.command)]

end PluginCommand

namespace Config

open Json Document

def path? (d : Document) : Option Path := (string? d).map Path.mk

def ofDocument? (d : Document) : Option Config := do
  let known ← d.record? ["sub_job_id", "main_working_directory", "keep_intermediate_files",
    "single_environment_model_per_fragment", "specifications_base",
    "requirement_specifications", "fragments_file", "scheduling", "resource_limits",
    "rescheduling", "plugins"]
  some {
    subJob := ← optional? known "sub_job_id" "default" string?
    mainDirectory := ← optional? known "main_working_directory" ⟨"."⟩ path?
    keepFiles := ← optional? known "keep_intermediate_files" false bool?
    singleModel := ← optional? known "single_environment_model_per_fragment" true bool?
    specificationsBase := ← required? known "specifications_base" path?
    patterns := ← required? known "requirement_specifications" (list? string?)
    fragmentsFile := ← optional? known "fragments_file" ⟨"program fragments.txt"⟩ path?
    scheduling := ← optional? known "scheduling" .standard Scheduling.ofDocument?
    limits := ← optional? known "resource_limits" .standard Limits.ofDocument?
    rescheduling := ← optional? known "rescheduling" .standard Rescheduling.ofDocument?
    plugins := ← optional? known "plugins" [] (dict? PluginCommand.ofDocument?) }

def toJson (c : Config) : Value :=
  .object [("fragments_file", .string c.fragmentsFile.text),
    ("keep_intermediate_files", .bool c.keepFiles),
    ("main_working_directory", .string c.mainDirectory.text),
    ("plugins", .object (Dict.mapValues PluginCommand.toJson c.plugins)),
    ("requirement_specifications", .strings c.patterns),
    ("rescheduling", c.rescheduling.toJson), ("resource_limits", c.limits.toJson),
    ("scheduling", c.scheduling.toJson),
    ("single_environment_model_per_fragment", .bool c.singleModel),
    ("specifications_base", .string c.specificationsBase.text),
    ("sub_job_id", .string c.subJob)]

/-- A path as seen from the main directory. -/
def resolve (c : Config) (p : Path) : Path :=
  if p.isAbsolute then p else c.mainDirectory.join p.text

/-- How the limits of the tasks grow. -/
def escalation (c : Config) : Escalation := c.rescheduling.escalation c.limits

/-! ### Checks -/

/-- Settings that cannot be honoured. -/
inductive Fault where
  | nothingAdmitted
  | nothingSelected
  | noAttempts
  | shrinkingFactor (memory time : Float)
  | ceilingTooLow (ceiling limits : Limits)

def Fault.message : Fault → String
  | .nothingAdmitted => "scheduling.max_solving_tasks must be at least 1"
  | .nothingSelected =>
    "nothing will be verified since requirement_specifications is empty"
  | .noAttempts => "rescheduling.max_attempts must be at least 1"
  | .shrinkingFactor memory time =>
    "escalation factors must be >= 1.0 (memory=" ++ Decimal.plain.write memory ++ ", time=" ++
      Decimal.plain.write time ++ ")"
  | .ceilingTooLow ceiling limits =>
    "rescheduling ceiling (" ++ ceiling.text ++ ") is below default resource limits (" ++
      limits.text ++ ")"

/-- The first fault, if there is any. -/
def fault? (c : Config) : Option Fault :=
  let r := c.rescheduling
  if c.scheduling.maxSolvingTasks = 0 then some .nothingAdmitted
  else if c.patterns.isEmpty then some .nothingSelected
  else if r.maxAttempts = 0 then some .noAttempts
  else if r.memoryFactor < 1 ∨ r.timeFactor < 1 then
    some (.shrinkingFactor r.memoryFactor r.timeFactor)
  else if !r.ceiling.dominates c.limits then some (.ceilingTooLow r.ceiling c.limits)
  else none

end Config
end TaskGen
