import TaskGen.Fragment.Load
import TaskGen.Pipeline
import TaskGen.Task

/-!
For a fragment and a class the shared stages are run once.  What they produce is a list of
descriptions, and each one becomes an environment model with a directory of its own.
-/

namespace TaskGen
namespace EnvModels

variable {σ : Type}

/-- What the first stage gets: the description of the fragment and what it is for. -/
def initialDescription (f : Fragment) (c : RequirementClass) : Json.Value :=
  .object (Dict.extend f.attributes
    [("files", .strings f.files), ("fragment", .string f.id),
      ("requirement class", .string c.key)])

/-! ### Names -/

/-- The attribute in which a description may carry a name. -/
def nameAttribute : String := "environment model identifier"

def ownName? : Json.Value → Option String
  | .object attributes => (Dict.find? attributes nameAttribute).bind Json.Value.string?
  | _ => none

/-- The name of the description at a place.  A name that is taken gets the place behind
it. -/
def name (taken : List String) (place : Nat) (description : Json.Value) : String :=
  let named := (ownName? description).getD ("model-" ++ toString place)
  if taken.contains named then named ++ "-" ++ toString place else named

/-- Names for the descriptions from a place on. -/
def namesFrom (taken : List String) (place : Nat) : List Json.Value → List String
  | [] => []
  | d :: rest =>
    let id := name taken place d
    id :: namesFrom (id :: taken) (place + 1) rest

/-- The names of the models.  The only model has a fixed name, whatever it calls itself. -/
def names : List Json.Value → List String
  | [_] => [Workspace.singleModel]
  | descriptions => namesFrom [] 0 descriptions

/-! ### Descriptions -/

/-- The last stage may write a list of descriptions, a single one, or null for none. -/
def descriptions : Json.Value → List Json.Value
  | .array items => items
  | .null => []
  | single => [single]

def readDescriptions (p : Path) : Act σ StageError (List Json.Value) := do
  let bytes ← Pipeline.io (Act.inspect fun files => files.read p)
  match (String.fromUTF8? bytes).bind Json.Value.ofString? with
  | some v => pure (descriptions v)
  | none => Act.fail .json

/-- Give a description a directory of its own. -/
def store (w : Workspace) (id : AbstractTaskId) (model : String) (description : Json.Value) :
    Act σ StageError EnvModel := do
  let dir := w.modelDir id model
  let artifact := dir.join Workspace.initialTask
  Pipeline.io (Act.makeDirs dir)
  Pipeline.writeJson artifact description
  pure ⟨model, dir, artifact⟩

def storeAll (w : Workspace) (id : AbstractTaskId) :
    List (String × Json.Value) → Act σ StageError (List EnvModel)
  | [] => pure []
  | (model, description) :: rest => do
    let stored ← store w id model description
    let others ← storeAll w id rest
    pure (stored :: others)

/-! ### Generation -/

/-- The names of the results of the shared stages.  That of the last one has all models in
it. -/
def outputs : List ConfiguredStage → List (ConfiguredStage × String)
  | [] => []
  | [c] => [(c, Workspace.abstractTasks)]
  | c :: rest => (c, Workspace.stageOutput c.stage) :: outputs rest

/-- Write the description that the first stage starts from. -/
def start (w : Workspace) (t : AbstractTask) (c : RequirementClass) : Act σ StageError Path := do
  let dir := w.abstractDir t.id
  Pipeline.io (Act.makeDirs dir)
  let files ← Act.files
  let fragment ← (Act.ofExcept (Fragment.load files t.descriptor)).mapError StageError.fragment
  let initial := dir.join Workspace.initialTask
  Pipeline.writeJson initial (initialDescription fragment c)
  pure initial

/-- The environment models of a fragment for a class.  Without shared stages the initial
description is the only model.  There may be no model at all. -/
def generate (registry : Registry (Runner σ)) (w : Workspace) (t : AbstractTask)
    (c : RequirementClass) : Act σ StageError (List EnvModel) := do
  let initial ← start w t c
  if c.sharedStages.isEmpty then
    let model := Workspace.singleModel
    pure [⟨model, w.modelDir t.id model, initial⟩]
  else
    let last ← Pipeline.runChain registry ⟨w.abstractDir t.id, none, none⟩
      (outputs c.sharedStages) initial
    let found ← readDescriptions last
    storeAll w t.id ((names found).zip found)

end EnvModels
end TaskGen
