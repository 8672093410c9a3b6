import TaskGen.CommandLine
import TaskGen.Config.Load
import TaskGen.Registry
import TaskGen.Setup

/-!
The program loads a configuration, classifies the requirements and checks that there is a
program for every stage.  It prints the classes on request.
-/

namespace TaskGen
namespace Program

/-- The values of variables of the environment. -/
def readEnvironment (names : List String) : IO Environment := do
  let values ← names.mapM fun name => do pure (name, ← IO.getEnv name)
  pure fun name => (values.lookup name).join

/-- A text from a file, or an error in its place. -/
def readOr (p : Path) (message : String) : IO String := do
  try IO.FS.readFile p.text catch _ => throw (IO.userError message)

def orThrow {ε α : Type} (message : ε → String) : Except ε α → IO α
  | .ok a => pure a
  | .error e => throw (IO.userError (message e))

def loadConfig (env : Environment) (p : Path) : IO Config := do
  let text ← readOr p Config.Error.io.message
  orThrow Config.Error.message (Config.parse env text)

/-- The requirements, which are also written down if intermediate files are kept. -/
def loadRequirements (c : Config) : IO (List Requirement) := do
  let base := c.resolve c.specificationsBase
  let text ← readOr base (Setup.Error.catalog .io).message
  let selected ← orThrow (fun e => (Setup.Error.catalog e).message) (Setup.selectFrom c text)
  if c.keepFiles then
    IO.FS.writeFile (c.resolve Setup.checkedSpecifications).text (checkedText selected)
  pure selected

def checkStages (c : Config) (classes : RequirementClasses) : IO Unit := do
  let registry ← orThrow StageError.message (Registry.ofPlugins c.plugins)
  orThrow StageError.message (registry.ensureCovers classes)

/-- Say what there is to do. -/
def summary (classes : RequirementClasses) (fragments : FragmentSet) : String :=
  toString (RequirementClasses.totalRequirements classes) ++ " requirements in " ++
    toString classes.length ++ " classes, " ++ toString fragments.length ++ " fragments"

def loadFragments (c : Config) (listing : Option Path) : IO FragmentSet := do
  let text ← readOr (c.resolve (listing.getD c.fragmentsFile)) Setup.Error.io.message
  orThrow (fun m => (Setup.Error.listing m).message) (Listing.parse text c.mainDirectory)

def work (arguments : List String) : IO Unit := do
  let env ← readEnvironment (Config.overrides ++ CommandLine.fallbacks)
  let line ← orThrow id (CommandLine.parse env arguments)
  let config ← loadConfig env line.config
  let classes := RequirementClasses.classify (← loadRequirements config)
  if line.dryRun then
    IO.println (RequirementClasses.toJson classes).pretty
  else
    checkStages config classes
    IO.println (summary classes (← loadFragments config line.fragments))

end Program
end TaskGen

def main (arguments : List String) : IO UInt32 := do
  try
    TaskGen.Program.work arguments
    pure 0
  catch e =>
    IO.eprintln ("Error: " ++ toString e)
    pure 1
