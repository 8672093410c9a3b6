import TaskGen.Rehearsal.Script

namespace TaskGen
namespace Rehearsal

/-- Take the first answer that is left for a bundle. -/
def takeAnswer (bundle : String) :
    List (String × List Answer) → Answer × List (String × List Answer)
  | [] => (.standard, [])
  | (part, answers) :: rest =>
    let skip :=
      let (answer, left) := takeAnswer bundle rest
      (answer, (part, answers) :: left)
    match answers with
    | [] => skip
    | answer :: more => if applies part bundle then (answer, (part, more) :: rest) else skip

def submissionOf (root task bundle : Path) (files : FileTree) : Submission where
  task := seenFrom root task
  bundle := seenFrom root bundle
  content := (files.read task).toOption

/-- What happens to a submission with a number. -/
def receive (number : Nat) (answer : Answer) : Act Log SessionError String := do
  if answer.stop then Act.stop
  match answer.reception with
  | .rejected reason => Act.fail (.rejected reason)
  | .panicked reason =>
    modifyLog fun log => { log with poisoned := true }
    Act.panic reason
  | .accepted polls ending =>
    let id := "remote-" ++ toString number
    modifyLog fun log => { log with accepted := (id, polls, ending) :: log.accepted }
    pure id

/-- Every submission is logged and gets its answer. -/
def submit (root task bundle : Path) : Act Log SessionError String := do
  let w ← Act.get
  let submission := submissionOf root task bundle w.files
  modifyLog fun log => { log with submissions := log.submissions ++ [submission] }
  if w.others.poisoned then Act.panic "lock: PoisonError \x7b .. \x7d"
  else
    let (answer, left) := takeAnswer submission.bundle w.others.answers
    modifyLog fun log => { log with answers := left }
    receive w.others.submissions.length answer

def Ending.reach (id : String) : Ending → Act Log SessionError (Option Solution)
  | .never => Act.hang
  | .lost => Act.fail (.unknownTask id)
  | .arrives (some solution) => pure (some solution)
  | .arrives none => Act.fail .json

/-- Ask for the solution of a submission. -/
def poll (id : String) : Act Log SessionError (Option Solution) := do
  let w ← Act.get
  match w.others.accepted.lookup id with
  | none => Act.fail (.unknownTask id)
  | some (0, ending) => ending.reach id
  | some (polls + 1, ending) =>
    modifyLog fun log => { log with accepted := (id, polls, ending) :: log.accepted }
    pure none

def session (root : Path) : Session Log := ⟨submit root, poll⟩

end Rehearsal
end TaskGen
