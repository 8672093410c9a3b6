import TaskGen.Dict
import TaskGen.Pipeline.Command
import TaskGen.Rehearsal.Shell.Script
import TaskGen.Rehearsal.Tools

/-!
A small shell, because the programs of stages often are scripts of a line or two.  It knows
quotes, parameters, redirections, pipes and conditions, but no loops and no functions.
-/

namespace TaskGen
namespace Rehearsal

structure Shell where
  /-- The name of the script and its arguments. -/
  arguments : List String
  assigned : Dict String
  /-- The exit code of the last command. -/
  status : Nat
  /-- A failure that no condition asks about ends the script. -/
  strict : Bool
  exited : Bool
  files : FileTree

namespace Shell

/-! ### Words -/

def numbered (sh : Shell) (n : Nat) : String := sh.arguments[n]?.getD ""

def parameter (sh : Shell) (name : String) : String :=
  match name with
  | "#" => toString (sh.arguments.length - 1)
  | "?" => toString sh.status
  | "@" | "*" => " ".intercalate (sh.arguments.drop 1)
  | "PWD" => place sh.files
  | _ =>
    match name.toNat? with
    | some n => sh.numbered n
    | none => (Dict.find? sh.assigned name).getD ""

/-- The words that a text falls apart into. -/
def fields (text : String) : List String :=
  ((text.toList.splitBy fun a b => isBreak a == isBreak b).filter fun part =>
    !(part.any isBreak)).map String.ofList
where
  isBreak (c : Char) : Bool := c = ' ' || c = '\t' || c = '\n'

/-- Words that are complete, and the one at hand if it has begun. -/
structure Expansion where
  done : List String
  open? : Option String

def Expansion.append (e : Expansion) (text : String) : Expansion :=
  { e with open? := some (e.open?.getD "" ++ text) }

/-- Add several words.  The first one goes on with the one at hand. -/
def Expansion.extend (e : Expansion) : List String → Expansion
  | [] => e
  | [text] => e.append text
  | text :: rest =>
    let first := (e.append text).open?.toList
    Expansion.extend ⟨e.done ++ first, none⟩ rest

def expandPiece (sh : Shell) (e : Expansion) : Piece → Expansion
  | .text _ chars => e.append (String.ofList chars)
  | .parameter true "@" => e.extend (sh.arguments.drop 1)
  | .parameter true name => e.append (sh.parameter name)
  | .parameter false name => e.extend (fields (sh.parameter name))

def expand (sh : Shell) (w : Word) : List String :=
  let e := w.foldl sh.expandPiece ⟨[], none⟩
  e.done ++ e.open?.toList

/-- A word that stays one word. -/
def expandOne (sh : Shell) (w : Word) : String := " ".intercalate (sh.expand w)

/-! ### Redirections -/

/-- Where the input comes from and the output goes. -/
structure Streams where
  input : ByteArray
  /-- The file for the output.  Without one it goes on to the next command. -/
  output : Option Path
  /-- The output goes where messages go. -/
  dropped : Bool

def isNull (p : String) : Bool := p = "/dev/null"

/-- Open a file for writing, and say whether that is possible. -/
def openFile (files : FileTree) (keep : Bool) (p : Path) : Except FileError FileTree :=
  if keep && files.has p && !isDirectory files p.text then .ok files else files.write p .empty

def toFile (sh : Shell) (s : Streams) (forOutput keep : Bool) (p : String) :
    Except FileError (Shell × Streams) :=
  let connected := fun (q : Option Path) =>
    if forOutput then { s with output := q, dropped := q.isNone } else s
  if isNull p then .ok (sh, connected none)
  else do
    let files ← openFile sh.files keep ⟨p⟩
    .ok ({ sh with files }, connected (some ⟨p⟩))

def redirect (r : Shell × Streams) (d : Redirect) : Except FileError (Shell × Streams) :=
  let (sh, s) := r
  let target := sh.expandOne d.target
  let forOutput := d.descriptor.getD '1' = '1'
  match d.operator with
  | "<" =>
    if isNull target then .ok (sh, { s with input := .empty })
    else do .ok (sh, { s with input := ← sh.files.read ⟨target⟩ })
  | ">" => sh.toFile s forOutput false target
  | ">>" => sh.toFile s forOutput true target
  | _ => .ok (sh, if forOutput ∧ target = "2" then { s with output := none, dropped := true } else s)

/-- Bring the output of a command to where it goes.  The rest goes on. -/
def deliver (s : Streams) (l : Left) : Left :=
  match s.output with
  | some p =>
    let before := (l.files.read p).toOption.getD .empty
    match l.files.write p (before ++ l.out) with
    | .ok files => { l with files, out := .empty }
    | .error _ => { l with out := .empty }
  | none => if s.dropped then { l with out := .empty } else l

/-! ### Commands -/

/-- An assignment, if the word is one. -/
def assignment? (text : String) : Option (String × String) :=
  let (name, rest) := text.toList.span (· ≠ '=')
  match name, rest with
  | c :: _, '=' :: value =>
    if (c.isAlpha || c = '_') && name.all fun c => c.isAlphanum || c = '_' then
      some (String.ofList name, String.ofList value)
    else none
  | _, _ => none

def leave (sh : Shell) (code : Nat) : Shell := { sh with status := code, exited := true }

/-- Change the directory. -/
def enter (sh : Shell) (p : String) : Shell :=
  match sh.files.locate ⟨p⟩ with
  | .ok loc =>
    if isDirectory sh.files p then { sh with files := sh.files.inside loc, status := 0 }
    else { sh with status := 2 }
  | .error _ => { sh with status := 2 }

/-- Whether a path names a tool: it is its name alone, or the place where tools are. -/
def toolName? (command : String) : Option String :=
  let name := lastPart command
  if command = name ∨ command = "/bin/" ++ name ∨ command = "/usr/bin/" ++ name then some name
  else none

/-- What the shell does itself. -/
def builtin? (sh : Shell) (name : String) (args : List String) : Option Shell :=
  match name, args with
  | ":", _ => some { sh with status := 0 }
  | "exit", [] => some (sh.leave sh.status)
  | "exit", code :: _ => some (sh.leave ((code.toNat?.getD 2) % 256))
  | "cd", [p] => some (sh.enter p)
  | "set", "-e" :: _ => some { sh with status := 0, strict := true }
  | "export", _ | "set", _ => some { sh with status := 0 }
  | "shift", _ =>
    some { sh with arguments := sh.arguments.take 1 ++ sh.arguments.drop 2, status := 0 }
  | _, _ => none

/-- A command that nobody knows ends with this. -/
def unknownCommand : Nat := 127

def runTool (sh : Shell) (s : Streams) (name : String) (args : List String) : Shell × ByteArray :=
  match (toolName? name).bind tool? with
  | some tool =>
    let l := deliver s (tool args s.input sh.files)
    ({ sh with status := l.code, files := l.files }, l.out)
  | none => ({ sh with status := unknownCommand }, .empty)

def runWords (sh : Shell) (s : Streams) : List String → Shell × ByteArray
  | [] => ({ sh with status := 0 }, .empty)
  | "exec" :: name :: args =>
    let (sh, out) := sh.runTool s name args
    (sh.leave sh.status, out)
  | name :: args =>
    match assignment? name, args with
    | some (key, value), [] =>
      ({ sh with assigned := Dict.insert sh.assigned key value, status := 0 }, .empty)
    | _, _ =>
      match sh.builtin? name args with
      | some sh => (sh, .empty)
      | none => sh.runTool s name args

/-- Run one command.  The exclamation mark turns its result around. -/
def runCommand (sh : Shell) (input : ByteArray) (c : Command) : Shell × ByteArray :=
  match c.redirects.foldlM redirect (sh, ⟨input, none, false⟩) with
  | .error _ => ({ sh with status := 2 }, .empty)
  | .ok (sh, s) =>
    match c.words.flatMap sh.expand with
    | "!" :: words =>
      let (sh, out) := sh.runWords s words
      ({ sh with status := if sh.status = 0 then 1 else 0 }, out)
    | words => sh.runWords s words

/-- Every command of a pipeline has a shell of its own, so it shares the files only. -/
def runPiped (sh : Shell) : ByteArray → List Command → Shell
  | _, [] => sh
  | input, c :: rest =>
    let (after, out) := sh.runCommand input c
    let files := after.files.inside sh.files.here
    runPiped { sh with status := after.status, files } out rest

def runPipeline (sh : Shell) (p : Pipeline) : Shell :=
  match p.commands with
  | [c] => (sh.runCommand .empty c).1
  | commands => sh.runPiped .empty commands

def isDue (sh : Shell) : Condition → Bool
  | .always => true
  | .onSuccess => sh.status = 0
  | .onFailure => sh.status ≠ 0

/-- Somebody asks how the pipeline before these ended. -/
def isAsked : List Pipeline → Bool
  | ⟨.onSuccess, _⟩ :: _ | ⟨.onFailure, _⟩ :: _ => true
  | _ => false

def runAll (sh : Shell) : Script → Shell
  | [] => sh
  | p :: rest =>
    if sh.exited then sh
    else if sh.isDue p.condition then
      let sh := sh.runPipeline p
      if sh.strict && sh.status ≠ 0 && !isAsked rest then sh.leave sh.status
      else runAll sh rest
    else runAll sh rest

/-- Run a script with its name and its arguments. -/
def run (script : String) (arguments : List String) (files : FileTree) : Nat × FileTree :=
  match parse? script with
  | none => (2, files)
  | some pipelines =>
    let sh : Shell := ⟨arguments, [], 0, false, false, files⟩
    let sh := sh.runAll pipelines
    (sh.status, sh.files)

end Shell

/-- The shell as a program. -/
def shellProgram : Program := fun args files =>
  match args with
  | "-c" :: script :: arguments => Shell.run script arguments files
  | _ => (2, files)

/-- The programs that stages can be made of. -/
def programs : Programs := fun command => do
  let name ← Shell.toolName? command
  if name = "sh" then some shellProgram
  else
    let tool ← tool? name
    some fun args files =>
      let l := tool args .empty files
      (l.code, l.files)

end Rehearsal
end TaskGen
