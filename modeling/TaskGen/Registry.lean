import TaskGen.Config
import TaskGen.RequirementClass
import TaskGen.StageError

namespace TaskGen

/-- What runs each stage, for the stages that can be run. -/
abbrev Registry (Runner : Type) := Stage → Option Runner

namespace Registry

variable {Runner : Type}

def empty : Registry Runner := fun _ => none

def register (r : Registry Runner) (stage : Stage) (runner : Runner) : Registry Runner :=
  fun s => if s = stage then some runner else r s

def get (r : Registry Runner) (stage : Stage) : Except StageError Runner :=
  match r stage with
  | some runner => .ok runner
  | none => .error (.noRunner stage)

/-- The stages that can be run. -/
def stages (r : Registry Runner) : List Stage := Stage.all.filter fun s => (r s).isSome

/-- A stage of some pipeline that cannot be run. -/
def uncovered? (r : Registry Runner) (classes : RequirementClasses) : Option Stage :=
  let used := classes.requirements.flatMap fun q => q.pipeline.map (·.stage)
  Stage.all.find? fun s => used.contains s && (r s).isNone

/-- Every stage of every pipeline can be run. -/
def ensureCovers (r : Registry Runner) (classes : RequirementClasses) : Except StageError Unit :=
  match r.uncovered? classes with
  | some s => .error (.noRunner s)
  | none => .ok ()

def addPlugins (r : Registry PluginCommand) :
    List (String × PluginCommand) → Except StageError (Registry PluginCommand)
  | [] => .ok r
  | (name, command) :: rest =>
    match Stage.ofName name with
    | .error _ => .error (.unknownStage name)
    | .ok stage => addPlugins (r.register stage command) rest

/-- The programs of a configuration. -/
def ofPlugins (plugins : Dict PluginCommand) : Except StageError (Registry PluginCommand) :=
  addPlugins empty plugins

end Registry
end TaskGen
