import TaskGen.Pipeline
import TaskGen.Session

/-!
A run can be rehearsed.  A script says what the stages and the scheduler do, and a log keeps
what they were asked for.
-/

namespace TaskGen
namespace Rehearsal

/-! ### What is done -/

/-- What a stage does with its input. -/
inductive Deed where
  | copy
  | write (bytes : ByteArray)
  /-- Write down what the stage was asked for. -/
  | record
  | fail (reason : String)
  | panic (reason : String)
  /-- Nothing at all. -/
  | silent
  | hang

/-- What a stage does if its output is where the rule applies. -/
structure Rule where
  /-- The rule applies where this is a part of the path of the output. -/
  part : String
  /-- Keep in the log what files there are. -/
  listing : Bool
  /-- Ask for the end of the run. -/
  stop : Bool
  deed : Deed

/-- The first rule that applies.  A stage copies if there is none. -/
def Rule.standard : Rule := ⟨"", false, false, .copy⟩

/-- How the wait for a solution ends. -/
inductive Ending where
  | never
  | lost
  /-- Something comes, but it need not be a solution. -/
  | arrives (solution : Option Solution)

/-- What happens to a submission. -/
inductive Reception where
  | rejected (reason : String)
  | panicked (reason : String)
  /-- There is no solution the first few times that somebody asks. -/
  | accepted (polls : Nat) (ending : Ending)

structure Answer where
  /-- Ask for the end of the run. -/
  stop : Bool
  reception : Reception

def Answer.standard : Answer := ⟨false, .accepted 0 (.arrives (some .finished))⟩

/-! ### What is logged -/

/-- A stage that ran.  Paths are relative to the main directory. -/
structure Call where
  stage : Stage
  input : String
  output : String
  conf : Option Json.Value
  listing : Option (List String)

structure Submission where
  task : String
  bundle : String
  content : Option ByteArray

/-- The log, and what is still to come. -/
structure Log where
  calls : List Call
  submissions : List Submission
  /-- The answers that are left, each list with the part of the path of the bundle to which
  it applies. -/
  answers : List (String × List Answer)
  /-- The submissions that were accepted, with the polls to wait for the end. -/
  accepted : List (String × Nat × Ending)
  /-- The scheduler panicked while it held the lock of the answers, so nobody gets the lock
  any more. -/
  poisoned : Bool

def Log.start (answers : List (String × List Answer)) : Log := ⟨[], [], answers, [], false⟩

def modifyLog (f : Log → Log) : Act Log ε Unit := Act.modify fun w => { w with others := f w.others }

/-! ### Paths -/

/-- `text` has `part` in it. -/
def hasPart (part : List Char) : List Char → Bool
  | [] => part.isEmpty
  | c :: rest => part.isPrefixOf (c :: rest) || hasPart part rest

def applies (part path : String) : Bool := hasPart part.toList path.toList

/-- A path as seen from a directory above it.  Other paths stay as they are. -/
def seenFrom (root p : Path) : String :=
  if root.steps.isPrefixOf p.steps then "/".intercalate (p.steps.drop root.steps.length)
  else p.text

end Rehearsal
end TaskGen
