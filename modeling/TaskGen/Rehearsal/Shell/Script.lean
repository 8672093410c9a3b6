import TaskGen.Rehearsal.Shell.Lexer

namespace TaskGen
namespace Rehearsal
namespace Shell

abbrev Word : Type := List Piece

/-- What is redirected, by the operator, and where to. -/
structure Redirect where
  descriptor : Option Char
  operator : String
  target : Word

structure Command where
  words : List Word
  redirects : List Redirect

/-- When a pipeline is run, depending on the one before it. -/
inductive Condition where
  | always
  | onSuccess
  | onFailure

/-- Commands of which each one reads what the one before it prints. -/
structure Pipeline where
  condition : Condition
  commands : List Command

abbrev Script : Type := List Pipeline

def isRedirection (operator : String) : Bool := [">", ">>", "<", ">&", "<&"].contains operator

/-! ### Parsing -/

/-- What has been parsed, the last one first. -/
structure Parser where
  command : Command
  commands : List Command
  condition : Condition
  pipelines : List Pipeline
  /-- A redirection that has no target yet. -/
  pending : Option (Option Char × String)
  descriptor : Option Char

namespace Parser

def start : Parser := ⟨⟨[], []⟩, [], .always, [], none, none⟩

def endCommand (p : Parser) : Option Parser :=
  if p.pending.isSome || (p.command.words.isEmpty && p.command.redirects.isEmpty) then none
  else
    let done : Command := ⟨p.command.words.reverse, p.command.redirects.reverse⟩
    some { p with command := ⟨[], []⟩, commands := done :: p.commands }

def endPipeline (p : Parser) (next : Condition) : Option Parser := do
  let p ← p.endCommand
  some { p with
    commands := []
    condition := next
    pipelines := ⟨p.condition, p.commands.reverse⟩ :: p.pipelines }

/-- Nothing has been read since the last end of a line. -/
def atStart (p : Parser) : Bool :=
  p.command.words.isEmpty && p.command.redirects.isEmpty && p.commands.isEmpty

def operator (p : Parser) (text : String) : Option Parser :=
  if isRedirection text then
    if p.pending.isSome then none
    else some { p with pending := some (p.descriptor, text), descriptor := none }
  else if text = "|" then p.endCommand
  else if text = "&&" then p.endPipeline .onSuccess
  else if text = "||" then p.endPipeline .onFailure
  else if text = "\n" && p.atStart then some p
  else p.endPipeline .always

def word (p : Parser) (w : Word) : Parser :=
  match p.pending with
  | some (descriptor, operator) =>
    let redirects := ⟨descriptor, operator, w⟩ :: p.command.redirects
    { p with command := { p.command with redirects }, pending := none }
  | none => { p with command := { p.command with words := w :: p.command.words } }

def step (p : Parser) : Token → Option Parser
  | .word w => some (p.word w)
  | .operator text => p.operator text
  | .descriptor digit => some { p with descriptor := some digit }

/-- The script, if nothing is missing at its end. -/
def finish? (p : Parser) : Option Script :=
  match p.atStart, p.condition with
  | true, .always => some p.pipelines.reverse
  | true, _ => none
  | false, _ => (p.endPipeline .always).map fun p => p.pipelines.reverse

end Parser

def parse? (script : String) : Option Script := do
  let p ← (← tokens? script.toList).foldlM Parser.step Parser.start
  p.finish?

end Shell
end Rehearsal
end TaskGen
