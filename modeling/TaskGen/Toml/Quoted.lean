import TaskGen.Text.Numeric
import TaskGen.Text.Scan

namespace TaskGen
namespace Toml

/-- Tabs, and all characters but control characters. -/
def isPrintable (c : Char) : Bool := c == '\t' || (32 ≤ c.toNat && c.toNat ≠ 127)

/-- The character with the given number, if there is one. -/
def charOfHex (digits : List Char) : Option Char := do
  let n := (← digits.mapM Text.hexValue?).foldl (fun n d => 16 * n + d) 0
  if n.isValidChar then some (Char.ofNat n) else none

def escaped? : Char → Option Char
  | 'b' => some (Char.ofNat 8)
  | 't' => some '\t'
  | 'n' => some '\n'
  | 'f' => some (Char.ofNat 12)
  | 'r' => some '\r'
  | '"' => some '"'
  | '\\' => some '\\'
  | _ => none

/-- Read up to a double quote on the same line.  The second part is what follows it. -/
def readQuoted : List Char → Option (List Char × List Char)
  | '"' :: rest => some ([], rest)
  | '\\' :: 'u' :: a :: b :: c :: d :: rest => do
    let ch ← charOfHex [a, b, c, d]
    let (s, rest) ← readQuoted rest
    some (ch :: s, rest)
  | '\\' :: 'U' :: a :: b :: c :: d :: e :: f :: g :: h :: rest => do
    let ch ← charOfHex [a, b, c, d, e, f, g, h]
    let (s, rest) ← readQuoted rest
    some (ch :: s, rest)
  | '\\' :: e :: rest => do
    let ch ← escaped? e
    let (s, rest) ← readQuoted rest
    some (ch :: s, rest)
  | c :: rest => do
    if isPrintable c then
      let (s, rest) ← readQuoted rest
      some (c :: s, rest)
    else none
  | [] => none

/-- A single quote on the same line ends the text.  There are no escapes. -/
def readLiteral : List Char → Option (List Char × List Char)
  | '\'' :: rest => some ([], rest)
  | c :: rest => do
    if isPrintable c then
      let (s, rest) ← readLiteral rest
      some (c :: s, rest)
    else none
  | [] => none

/-- Nothing but blanks is left on the line. -/
def lineEnds (s : List Char) : Bool :=
  match s.dropWhile fun c => c == ' ' || c == '\t' with
  | '\n' :: _ => true
  | '\r' :: '\n' :: _ => true
  | _ => false

/-- Of more than three quotes at the end of a block the first ones belong to its text. -/
def endBlock (quote : Char) : List Char → List Char × List Char
  | a :: b :: rest =>
    if a = quote then if b = quote then ([a, b], rest) else ([a], b :: rest)
    else ([], a :: b :: rest)
  | [a] => if a = quote then ([a], []) else ([], [a])
  | [] => ([], [])

/-- Read up to three double quotes.  A backslash at the end of a line swallows all blanks
and line ends that follow, which `swallow` is about. -/
def readQuotedBlock : Bool → List Char → Option (List Char × List Char)
  | _, '"' :: '"' :: '"' :: rest => some (endBlock '"' rest)
  | _, '\\' :: 'u' :: a :: b :: c :: d :: rest => do
    let ch ← charOfHex [a, b, c, d]
    let (s, rest) ← readQuotedBlock false rest
    some (ch :: s, rest)
  | _, '\\' :: 'U' :: a :: b :: c :: d :: e :: f :: g :: h :: rest => do
    let ch ← charOfHex [a, b, c, d, e, f, g, h]
    let (s, rest) ← readQuotedBlock false rest
    some (ch :: s, rest)
  | _, '\\' :: e :: rest => do
    if lineEnds (e :: rest) then readQuotedBlock true (e :: rest)
    else
      let ch ← escaped? e
      let (s, rest) ← readQuotedBlock false rest
      some (ch :: s, rest)
  | swallow, '\r' :: '\n' :: rest => do
    if swallow then readQuotedBlock true rest
    else
      let (s, rest) ← readQuotedBlock false rest
      some ('\n' :: s, rest)
  | swallow, c :: rest => do
    if swallow && (c == ' ' || c == '\t' || c == '\n') then readQuotedBlock true rest
    else if isPrintable c || c == '\n' then
      let (s, rest) ← readQuotedBlock false rest
      some (c :: s, rest)
    else none
  | _, [] => none

/-- Read up to three single quotes. -/
def readLiteralBlock : List Char → Option (List Char × List Char)
  | '\'' :: '\'' :: '\'' :: rest => some (endBlock '\'' rest)
  | '\r' :: '\n' :: rest => do
    let (s, rest) ← readLiteralBlock rest
    some ('\n' :: s, rest)
  | c :: rest => do
    if isPrintable c || c == '\n' then
      let (s, rest) ← readLiteralBlock rest
      some (c :: s, rest)
    else none
  | [] => none

/-- A line end right behind the opening quotes does not count. -/
def dropLineEnd : List Char → List Char
  | '\n' :: rest => rest
  | '\r' :: '\n' :: rest => rest
  | s => s

/-- Read a text on one line, in single or double quotes. -/
def readLineString : List Char → Option (List Char × List Char)
  | '"' :: rest => readQuoted rest
  | '\'' :: rest => readLiteral rest
  | _ => none

def readString : List Char → Option (List Char × List Char)
  | '"' :: '"' :: '"' :: rest => readQuotedBlock false (dropLineEnd rest)
  | '\'' :: '\'' :: '\'' :: rest => readLiteralBlock (dropLineEnd rest)
  | s => readLineString s

def lineString : Scan String := do
  let (s, rest) ← readLineString (← get)
  set rest
  pure (String.ofList s)

def string : Scan String := do
  let (s, rest) ← readString (← get)
  set rest
  pure (String.ofList s)

end Toml
end TaskGen
