import TaskGen.Rehearsal.Script

namespace TaskGen
namespace Rehearsal

/-- The rules for the stages that can be run. -/
abbrev StageRules : Type := List (Stage × List Rule)

def listing (root : Path) (files : FileTree) : List String :=
  match files.locate root with
  | .ok top => files.listing top
  | .error _ => []

def readConf (files : FileTree) (p : Path) : Option Json.Value := do
  let text ← (files.readText p).toOption
  Json.Value.ofString? text

def callOf (root : Path) (rule : Rule) (i : Invocation) (files : FileTree) : Call where
  stage := i.stage
  input := seenFrom root i.input
  output := seenFrom root i.output
  conf := readConf files i.confPath
  listing := if rule.listing then some (listing root files) else none

/-- What the stage was asked for. -/
def request (root : Path) (i : Invocation) : Json.Value :=
  .object [("input", .string (seenFrom root i.input)),
    ("limits", .optional Limits.toJson i.limits),
    ("requirement", .optional .string i.requirement), ("stage", .string i.stage.name)]

def produce (i : Invocation) (bytes : ByteArray) : Act Log StageError Unit :=
  Pipeline.io (Act.change fun files => files.write i.output bytes)

def Deed.perform (root : Path) (i : Invocation) : Deed → Act Log StageError Unit
  | .copy => do
    let bytes ← Pipeline.io (Act.inspect fun files => files.read i.input)
    produce i bytes
  | .write bytes => produce i bytes
  | .record => produce i (request root i).compact.toUTF8
  | .fail reason => Act.fail (.failed i.stage reason)
  | .panic reason => Act.panic reason
  | .silent => pure ()
  | .hang => Act.hang

/-- A stage that follows its rules. -/
def stageRunner (root : Path) (rules : List Rule) : Runner Log := fun i => do
  let rule := (rules.find? fun r => applies r.part (seenFrom root i.output)).getD .standard
  let files ← Act.files
  modifyLog fun log => { log with calls := log.calls ++ [callOf root rule i files] }
  if rule.stop then Act.stop
  rule.deed.perform root i

/-- The stages that have rules. -/
def registry (root : Path) (rules : StageRules) : Registry (Runner Log) :=
  fun stage => (rules.lookup stage).map (stageRunner root)

end Rehearsal
end TaskGen
