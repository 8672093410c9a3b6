import TaskGen.Options
import TaskGen.Stage

namespace TaskGen

/-- A stage with its options. -/
structure ConfiguredStage where
  stage : Stage
  options : Options

namespace ConfiguredStage

def same (a b : ConfiguredStage) : Bool :=
  a.stage == b.stage && Json.sameMembers a.options b.options

def ofDocument? (d : Json.Document) : Option ConfiguredStage := do
  let known ← d.record? ["name", "options"]
  let stage ← Json.required? known "name" Stage.ofDocument?
  let options ← Json.optional? known "options" [] Options.ofDocument?
  some ⟨stage, options⟩

def toJson (c : ConfiguredStage) : Json.Value :=
  .object [("name", c.stage.toJson), ("options", .object c.options)]

end ConfiguredStage

/-- Equality of pipelines, option by option. -/
def samePipeline : List ConfiguredStage → List ConfiguredStage → Bool
  | [], [] => true
  | a :: as, b :: bs => a.same b && samePipeline as bs
  | _, _ => false

/-- A requirement to check, with all options of its stages settled. -/
structure Requirement where
  identifier : String
  pipeline : List ConfiguredStage

namespace Requirement

/-- The stages in front that can be run once for many requirements. -/
def sharedStages (r : Requirement) : List ConfiguredStage :=
  r.pipeline.takeWhile (·.stage.isShared)

/-- The stages that are run for this requirement, on an environment model. -/
def ownStages (r : Requirement) : List ConfiguredStage :=
  r.pipeline.dropWhile (·.stage.isShared)

theorem sharedStages_append_ownStages (r : Requirement) :
    r.sharedStages ++ r.ownStages = r.pipeline := List.takeWhile_append_dropWhile

theorem isShared_of_mem_sharedStages {r : Requirement} {c : ConfiguredStage}
    (h : c ∈ r.sharedStages) : c.stage.isShared = true :=
  List.all_eq_true.1 List.all_takeWhile c h

def ofDocument? (d : Json.Document) : Option Requirement := do
  let known ← d.record? ["identifier", "plugins"]
  let identifier ← Json.required? known "identifier" Json.Document.string?
  let pipeline ← Json.required? known "plugins" (Json.Document.list? ConfiguredStage.ofDocument?)
  some ⟨identifier, pipeline⟩

def toJson (r : Requirement) : Json.Value :=
  .object [("identifier", .string r.identifier), ("plugins", .array (r.pipeline.map (·.toJson)))]

end Requirement
end TaskGen
