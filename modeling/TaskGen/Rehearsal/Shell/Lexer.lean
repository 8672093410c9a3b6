namespace TaskGen
namespace Rehearsal
namespace Shell

/-!
The words and operators of a shell script.  The characters are read one after the other, and
the state says what they may be part of.
-/

/-- A piece of a word.  What is not quoted may fall apart into several words. -/
inductive Piece where
  | text (quoted : Bool) (chars : List Char)
  | parameter (quoted : Bool) (name : String)

inductive Token where
  | word (pieces : List Piece)
  | operator (text : String)
  /-- A number that stands right before a redirection. -/
  | descriptor (digit : Char)

/-- Where the next character belongs. -/
inductive Mode where
  | plain
  | single
  | double
  | escaped (inDouble : Bool)
  | parameter (inDouble : Bool)
  | braced (inDouble : Bool)
  | operator
  | comment
  /-- Something that is not understood. -/
  | broken
  deriving DecidableEq

/-- What has been read.  The last one comes first in all lists. -/
structure Lexer where
  mode : Mode
  chars : List Char
  pieces : List Piece
  tokens : List Token

namespace Lexer

def start : Lexer := ⟨.plain, [], [], []⟩

/-- End the piece of text at hand.  A quoted one counts even if it is empty. -/
def endText (l : Lexer) (quoted : Bool) : Lexer :=
  if l.chars.isEmpty && !quoted then l
  else { l with chars := [], pieces := .text quoted l.chars.reverse :: l.pieces }

def endWord (l : Lexer) : Lexer :=
  let l := l.endText false
  if l.pieces.isEmpty then l
  else { l with pieces := [], tokens := .word l.pieces.reverse :: l.tokens }

/-- End the word before a redirection.  A digit alone says what is redirected. -/
def endDescriptor (l : Lexer) : Lexer :=
  match l.pieces, l.chars with
  | [], [c] => if c.isDigit then { l with chars := [], tokens := .descriptor c :: l.tokens }
    else l.endWord
  | _, _ => l.endWord

def endParameter (l : Lexer) (inDouble : Bool) : Lexer :=
  { l with
    mode := if inDouble then .double else .plain
    chars := []
    pieces := .parameter inDouble (String.ofList l.chars.reverse) :: l.pieces }

def endOperator (l : Lexer) : Lexer :=
  { l with
    mode := .plain
    chars := []
    tokens := .operator (String.ofList l.chars.reverse) :: l.tokens }

def operators : List String := [";", "\n", "&", "|", "<", ">", "&&", "||", ">>", ">&", "<&"]

def add (l : Lexer) (c : Char) : Lexer := { l with chars := c :: l.chars }

def stepPlain (l : Lexer) (c : Char) : Lexer :=
  if c = ' ' ∨ c = '\t' then l.endWord
  else if c = '<' ∨ c = '>' then { l.endDescriptor with mode := .operator, chars := [c] }
  else if c = ';' ∨ c = '&' ∨ c = '|' ∨ c = '\n' then
    { l.endWord with mode := .operator, chars := [c] }
  else if c = '\'' then { l.endText false with mode := .single }
  else if c = '"' then { l.endText false with mode := .double }
  else if c = '\\' then { l.endText false with mode := .escaped false }
  else if c = '$' then { l.endText false with mode := .parameter false }
  else if c = '#' ∧ l.chars.isEmpty ∧ l.pieces.isEmpty then { l with mode := .comment }
  else if c = '(' ∨ c = ')' ∨ c.toNat = 96 then { l with mode := .broken }
  else l.add c

def stepDouble (l : Lexer) (c : Char) : Lexer :=
  if c = '"' then { l.endText true with mode := .plain }
  else if c = '\\' then { l with mode := .escaped true }
  else if c = '$' then 
    { if l.chars.isEmpty then l else l.endText true with mode := .parameter true }
  else if c.toNat = 96 then { l with mode := .broken }
  else l.add c

/-- Between double quotes only some characters can be escaped. -/
def stepEscaped (l : Lexer) (inDouble : Bool) (c : Char) : Lexer :=
  if inDouble then
    let l := { l with mode := .double }
    if c = '\n' then l
    else if c = '$' ∨ c = '"' ∨ c = '\\' ∨ c.toNat = 96 then l.add c
    else (l.add '\\').add c
  else if c = '\n' then { l with mode := .plain }
  else { l with mode := .plain, pieces := .text true [c] :: l.pieces }

def stepParameter (l : Lexer) (inDouble : Bool) (c : Char) : Lexer :=
  let again := fun (l : Lexer) => if inDouble then l.stepDouble c else l.stepPlain c
  match l.chars with
  | [] =>
    if c = '\x7b' then { l with mode := .braced inDouble }
    else if c.isDigit ∨ c = '@' ∨ c = '*' ∨ c = '#' ∨ c = '?' then (l.add c).endParameter inDouble
    else if c.isAlpha ∨ c = '_' then l.add c
    else if c = '(' then { l with mode := .broken }
    else again ({ l with mode := if inDouble then .double else .plain }.add '$')
  | _ => if c.isAlphanum ∨ c = '_' then l.add c else again (l.endParameter inDouble)

def stepOperator (l : Lexer) (c : Char) : Lexer :=
  if operators.contains (String.ofList (c :: l.chars).reverse) then l.add c
  else l.endOperator.stepPlain c

def step (l : Lexer) (c : Char) : Lexer :=
  match l.mode with
  | .plain => l.stepPlain c
  | .single => if c = '\'' then { l.endText true with mode := .plain } else l.add c
  | .double => l.stepDouble c
  | .escaped inDouble => l.stepEscaped inDouble c
  | .parameter inDouble => l.stepParameter inDouble c
  | .braced inDouble => if c = '\x7d' then l.endParameter inDouble else l.add c
  | .operator => l.stepOperator c
  | .comment => if c = '\n' then { l with mode := .plain }.stepPlain c else l
  | .broken => l

/-- The tokens, if the end is a place where the script may end. -/
def finish? (l : Lexer) : Option (List Token) :=
  match l.mode with
  | .plain => some l.endWord.tokens.reverse
  | .comment => some l.tokens.reverse
  | .operator => some l.endOperator.tokens.reverse
  | .parameter false =>
    if l.chars.isEmpty then some (({ l with mode := .plain }.add '$').endWord.tokens.reverse)
    else some (l.endParameter false).endWord.tokens.reverse
  | _ => none

end Lexer

def tokens? (script : List Char) : Option (List Token) :=
  (script.foldl Lexer.step Lexer.start).finish?

end Shell
end Rehearsal
end TaskGen
