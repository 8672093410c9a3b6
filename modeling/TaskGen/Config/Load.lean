import TaskGen.Config

/-!
The settings come from a text.  Variables of the environment override some of them, and the
result is checked.
-/

namespace TaskGen

/-- The value of a variable, if it is set. -/
abbrev Environment := String → Option String

namespace Environment

/-- An empty value counts as none. -/
def text? (env : Environment) (name : String) : Option String :=
  (env name).filter fun s => !s.isEmpty

/-- A number in decimal digits, with or without a plus sign.  Everything else counts as
none. -/
def readNat? (most : Nat) (s : String) : Option Nat :=
  let digits :=
    match s.toList with
    | '+' :: rest => rest
    | digits => digits
  if digits.isEmpty || !digits.all Char.isDigit then none
  else some (Scan.valueOf digits) |>.filter (· ≤ most)

def nat? (env : Environment) (most : Nat) (name : String) : Option Nat :=
  (env.text? name).bind (readNat? most)

/-- Every value but a few is taken for no. -/
def flag? (env : Environment) (name : String) : Option Bool :=
  (env.text? name).map fun s => ["1", "true", "yes"].contains (s.map Char.toLower)

end Environment

namespace Config

/-- The variables that override settings. -/
def overrides : List String :=
  ["VTG_SUB_JOB_ID", "VTG_MAIN_WORKING_DIRECTORY", "VTG_KEEP_INTERMEDIATE_FILES",
    "VTG_SPECIFICATIONS_BASE", "VTG_SCHEDULING_MAX_SOLVING_TASKS",
    "VTG_SCHEDULING_PARALLELISM", "VTG_SCHEDULING_SHUTDOWN_GRACE_SECS",
    "VTG_RESCHEDULING_MAX_ATTEMPTS"]

def override (env : Environment) (c : Config) : Config :=
  { c with
    subJob := (env.text? "VTG_SUB_JOB_ID").getD c.subJob
    mainDirectory :=
      ((env.text? "VTG_MAIN_WORKING_DIRECTORY").map Path.mk).getD c.mainDirectory
    keepFiles := (env.flag? "VTG_KEEP_INTERMEDIATE_FILES").getD c.keepFiles
    specificationsBase :=
      ((env.text? "VTG_SPECIFICATIONS_BASE").map Path.mk).getD c.specificationsBase
    scheduling := { c.scheduling with
      maxSolvingTasks :=
        (env.nat? Limits.largest "VTG_SCHEDULING_MAX_SOLVING_TASKS").getD
          c.scheduling.maxSolvingTasks
      parallelism :=
        (env.nat? Limits.largest "VTG_SCHEDULING_PARALLELISM").getD c.scheduling.parallelism
      graceSeconds :=
        (env.nat? Limits.largest "VTG_SCHEDULING_SHUTDOWN_GRACE_SECS").getD
          c.scheduling.graceSeconds }
    rescheduling := { c.rescheduling with
      maxAttempts :=
        (env.nat? Rescheduling.mostAttempts "VTG_RESCHEDULING_MAX_ATTEMPTS").getD
          c.rescheduling.maxAttempts } }

/-- Why there is no configuration. -/
inductive Error where
  /-- The file cannot be read. -/
  | io
  | malformed
  | rejected (fault : Fault)

def Error.message : Error → String
  | .io => "IO error"
  | .malformed => "config parse error"
  | .rejected fault => "config error: " ++ fault.message

def check (c : Config) : Except Error Config :=
  match c.fault? with
  | some fault => .error (.rejected fault)
  | none => .ok c

def parse (env : Environment) (text : String) : Except Error Config :=
  match (Toml.ofString? text).bind ofDocument? with
  | none => .error .malformed
  | some c => check (c.override env)

end Config
end TaskGen
