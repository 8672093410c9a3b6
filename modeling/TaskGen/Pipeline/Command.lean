import TaskGen.Pipeline

/-!
A stage can be a program of its own.  It is called in the working directory of the stage
with three arguments behind those of the configuration: the options document, the input
and the output.
-/

namespace TaskGen

/-- What a program makes of its arguments and the files it sees.  An exit code other than
zero is a failure, and the files are as the program left them all the same. -/
abbrev Program : Type := List String → FileTree → Nat × FileTree

/-- The programs that can be started, by the names that they are called by. -/
abbrev Programs : Type := String → Option Program

namespace PluginCommand

variable {σ : Type}

def arguments (c : PluginCommand) (i : Invocation) : List String :=
  c.args ++ [i.confPath.text, i.input.text, i.output.text]

/-- The program and the directory to start it in.  A zero character would end an argument
too early, so such a program is not started. -/
def prepare? (programs : Programs) (c : PluginCommand) (i : Invocation) (files : FileTree) :
    Option (Program × Location) := do
  let program ← programs c.command
  let dir ← (files.locate i.workDir).toOption
  if (c.arguments i).any (·.toList.contains (Char.ofNat 0)) then none else some (program, dir)

/-- The program as the runner of a stage. -/
def runner (programs : Programs) (c : PluginCommand) : Runner σ := fun i => do
  let files ← Act.files
  match c.prepare? programs i files with
  | none => Act.fail (.spawn i.stage c.command)
  | some (program, dir) =>
    let (code, left) := program (c.arguments i) (files.inside dir)
    Act.setFiles (left.inside files.here)
    if code = 0 then pure () else Act.fail (.exit i.stage code)

end PluginCommand

/-- The runners of configured programs. -/
def Registry.start {σ : Type} (programs : Programs) (r : Registry PluginCommand) :
    Registry (Runner σ) :=
  fun stage => (r stage).map (·.runner programs)

end TaskGen
