import TaskGen.Config.Load

namespace TaskGen

/-- What the program is called with. -/
structure CommandLine where
  /-- The configuration. -/
  config : Path
  /-- A listing of fragments in place of the configured one. -/
  fragments : Option Path
  /-- The directory that is shared with those who solve tasks. -/
  spool : Path
  /-- Print the classes of the requirements and do nothing else. -/
  dryRun : Bool
  deriving DecidableEq, Repr

namespace CommandLine

/-- The variables that stand in for options that are not given. -/
def fallbacks : List String := ["VTG_CONFIG", "VTG_FRAGMENTS", "VTG_SPOOL"]

/-- The values without any argument. -/
def fallback (env : Environment) : CommandLine where
  config := ⟨(env "VTG_CONFIG").getD "vtg.toml"⟩
  fragments := (env "VTG_FRAGMENTS").map Path.mk
  spool := ⟨(env "VTG_SPOOL").getD "spool"⟩
  dryRun := false

/-- Set an option that has a value. -/
def set? (c : CommandLine) (option value : String) : Option CommandLine :=
  match option with
  | "--config" => some { c with config := ⟨value⟩ }
  | "--fragments" => some { c with fragments := some ⟨value⟩ }
  | "--spool" => some { c with spool := ⟨value⟩ }
  | _ => none

def unexpected (argument : String) : String := "unexpected argument '" ++ argument ++ "'"

/-- The name in front of an equals sign and the value behind it, if there is one. -/
def splitArgument (argument : String) : String × Option String :=
  let (name, rest) := argument.toList.span (· ≠ '=')
  (String.ofList name, rest.tail?.map String.ofList)

/-- Read arguments.  A value follows its option, or stands behind an equals sign. -/
def readArguments (c : CommandLine) : List String → Except String CommandLine
  | [] => .ok c
  | [argument] => readLast c argument
  | argument :: value :: rest =>
    match splitArgument argument with
    | (name, some given) =>
      match c.set? name given with
      | some c => readArguments c (value :: rest)
      | none => .error (unexpected argument)
    | (name, none) =>
      if name = "--dry-run" then readArguments { c with dryRun := true } (value :: rest)
      else
        match c.set? name value with
        | some c => readArguments c rest
        | none => .error (unexpected argument)
where
  readLast (c : CommandLine) (argument : String) : Except String CommandLine :=
    match splitArgument argument with
    | ("--dry-run", none) => .ok { c with dryRun := true }
    | (name, some given) =>
      match c.set? name given with
      | some c => .ok c
      | none => .error (unexpected argument)
    | _ => .error (unexpected argument)

def parse (env : Environment) (arguments : List String) : Except String CommandLine :=
  readArguments (fallback env) arguments

end CommandLine
end TaskGen
