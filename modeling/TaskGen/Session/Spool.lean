import TaskGen.Path
import TaskGen.Session

/-!
Every task gets a directory in the spool.  Whoever solves it leaves the solution there.
-/

namespace TaskGen

/-- The operations on files that a submission is made of.  They may fail for reasons that the
files do not show. -/
structure Disk (σ : Type) where
  makeDirs : Path → Act σ FileError Unit
  copy : Path → Path → Act σ FileError Unit
  write : Path → ByteArray → Act σ FileError Unit

/-- A disk that is never full and never breaks. -/
def Disk.sound {σ : Type} : Disk σ where
  makeDirs := Act.makeDirs
  copy source target := Act.change fun files => files.copy source target
  write p bytes := Act.change fun files => files.write p bytes

structure Spool where
  root : Path

namespace Spool

variable {σ : Type}

def taskFile : String := "task.json"

def solutionFile : String := "solution.json"

/-- The file that tells where the files of the task are. -/
def bundleFile : String := "bundle"

def taskDir (s : Spool) (id : String) : Path := s.root.join id

def io (a : Act σ FileError α) : Act σ SessionError α := a.mapError fun _ => .io

/-- Put a task into the spool under an identifier that nobody has used. -/
def submit (s : Spool) (d : Disk σ) (id : String) (task bundle : Path) :
    Act σ SessionError Unit := do
  let dir := s.taskDir id
  io (d.makeDirs dir)
  io (d.copy task (dir.join taskFile))
  io (d.write (dir.join bundleFile) bundle.text.toUTF8)

def schedule (s : Spool) (id : String) (task bundle : Path) : Act σ SessionError Unit :=
  s.submit .sound id task bundle

def readSolution (bytes : ByteArray) : Except SessionError Solution :=
  match (String.fromUTF8? bytes).bind Solution.ofString? with
  | some solution => .ok solution
  | none => .error .json

/-- A task with a directory is known, and it is solved when the solution is there. -/
def poll (s : Spool) (files : FileTree) (id : String) : Except SessionError (Option Solution) :=
  let dir := s.taskDir id
  if !files.has dir then .error (.unknownTask id)
  else
    match files.read (dir.join solutionFile) with
    | .ok bytes => (readSolution bytes).map some
    | .error .missing => .ok none
    | .error .refused => .error .io

def solution (s : Spool) (id : String) : Act σ SessionError (Option Solution) := do
  let files ← Act.files
  Act.ofExcept (s.poll files id)

/-- The spool as a session, with a source of fresh identifiers. -/
def session (s : Spool) (d : Disk σ) (fresh : Act σ SessionError String) : Session σ where
  schedule task bundle := do
    let id ← fresh
    s.submit d id task bundle
    pure id
  solution := s.solution

end Spool
end TaskGen
