import TaskGen.Options
import TaskGen.Workspace

namespace TaskGen

/-- What a stage gets to know. -/
structure Invocation where
  stage : Stage
  options : Options
  input : Path
  output : Path
  workDir : Path
  /-- The requirement that the result is for.  A shared stage has none. -/
  requirement : Option String
  limits : Option Limits

namespace Invocation

/-- The options document: the options, the requirement and the limits. -/
def conf (i : Invocation) : Json.Value :=
  let withRequirement :=
    match i.requirement with
    | some r => Dict.insert i.options "solution class" (.string r)
    | none => i.options
  .object <|
    match i.limits with
    | some l => Dict.insert withRequirement "override resource limits" l.toJson
    | none => withRequirement

def confPath (i : Invocation) : Path := i.workDir.join (Workspace.stageConf i.stage)

end Invocation
end TaskGen
