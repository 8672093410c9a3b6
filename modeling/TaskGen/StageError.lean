import TaskGen.Fragment.Load
import TaskGen.Stage

namespace TaskGen

/-- Why a stage did not do its work.  Nothing is tried again after that. -/
inductive StageError where
  | io
  | json
  | fragment (e : DescriptorError)
  | noRunner (stage : Stage)
  | unknownStage (name : String)
  /-- The program cannot be started. -/
  | spawn (stage : Stage) (command : String)
  | exit (stage : Stage) (code : Nat)
  | missingOutput (stage : Stage) (path : Path)
  | failed (stage : Stage) (reason : String)

def StageError.message : StageError → String
  | .io => "I/O error"
  | .json => "JSON error"
  | .fragment e => "fragment error: " ++ e.message
  | .noRunner s => "no runner registered for stage " ++ s.name
  | .unknownStage name => "unknown stage \"" ++ name ++ "\" in plugin configuration"
  | .spawn s command => "stage " ++ s.name ++ " could not be started: " ++ command
  | .exit s code => "stage " ++ s.name ++ " exited with exit status: " ++ toString code
  | .missingOutput s path => "stage " ++ s.name ++ " produced no output at " ++ path.text
  | .failed s reason => "stage " ++ s.name ++ " failed: " ++ reason

end TaskGen
