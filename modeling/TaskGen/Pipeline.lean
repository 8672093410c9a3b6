import TaskGen.Act
import TaskGen.Invocation
import TaskGen.Json.Printer
import TaskGen.Registry

/-!
Stages know each other by their files only.  A stage reads the result of the one before it
and the options document that is written for it, and leaves a result of its own.
-/

namespace TaskGen

/-- What does the work of a stage. -/
abbrev Runner (σ : Type) : Type := Invocation → Act σ StageError Unit

namespace Pipeline

variable {σ : Type}

def io (a : Act σ FileError α) : Act σ StageError α := a.mapError fun _ => .io

def writeJson (p : Path) (v : Json.Value) : Act σ StageError Unit :=
  io (Act.change fun files => files.write p v.pretty.toUTF8)

/-- There has to be something where the result is expected, whoever made it. -/
def checkOutput (i : Invocation) : Act σ StageError Unit := do
  let files ← Act.files
  if files.has i.output then pure () else Act.fail (.missingOutput i.stage i.output)

/-- Run one stage. -/
def executeStage (registry : Registry (Runner σ)) (i : Invocation) : Act σ StageError Unit := do
  let runner ← Act.ofExcept (registry.get i.stage)
  io (Act.makeDirs i.workDir)
  writeJson i.confPath i.conf
  runner i
  checkOutput i

/-- What the stages of one chain have in common. -/
structure Setting where
  dir : Path
  requirement : Option String
  limits : Option Limits

/-- The invocation of a stage in a directory, with the name of its result there. -/
def Setting.invocation (s : Setting) (c : ConfiguredStage) (input : Path) (output : String) :
    Invocation where
  stage := c.stage
  options := c.options
  input
  output := s.dir.join output
  workDir := s.dir.join c.stage.dirName
  requirement := s.requirement
  limits := s.limits

/-- Run stages one after the other, each on the result of the one before it, and tell the
last result.  Each stage comes with the name of its own. -/
def runChain (registry : Registry (Runner σ)) (s : Setting) :
    List (ConfiguredStage × String) → Path → Act σ StageError Path
  | [], input => pure input
  | (c, output) :: rest, input => do
    let i := s.invocation c input output
    executeStage registry i
    runChain registry s rest i.output

end Pipeline
end TaskGen
