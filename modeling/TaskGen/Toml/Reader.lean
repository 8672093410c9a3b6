import TaskGen.Toml.Scalar
import TaskGen.Toml.Table

namespace TaskGen
namespace Toml

open Scan

def skipSpaces : Scan Unit := skipWhile fun c => c == ' ' || c == '\t'

def lineEnd : Scan Unit := do
  match ← get with
  | '\n' :: rest => set rest
  | '\r' :: '\n' :: rest => set rest
  | [] => pure ()
  | _ => failure

/-- What may follow on a line: a comment. -/
def restOfLine : Scan Unit := do
  skipSpaces
  if (← front) == some '#' then skipWhile isPrintable
  lineEnd

/-- Within brackets there may be spaces, line ends and comments. -/
def dropGaps : Bool → List Char → List Char
  | _, [] => []
  | inComment, c :: rest =>
    if inComment && isPrintable c then dropGaps true rest
    else if c == ' ' || c == '\t' || c == '\n' then dropGaps false rest
    else if c == '\r' && rest.head? == some '\n' then dropGaps false rest
    else if c == '#' then dropGaps true rest
    else c :: rest

def skipGaps : Scan Unit := modify (dropGaps false)

def isBareKey (c : Char) : Bool := c.isAlphanum || c == '-' || c == '_'

def simpleKey : Scan String := do
  match ← front with
  | some '"' => lineString
  | some '\'' => lineString
  | _ =>
    let s ← takeWhile isBareKey
    if s.isEmpty then failure
    pure (String.ofList s)

/-- Brackets and dotted keys may not go deeper than that. -/
def deepest : Nat := 79

/-- The parts of a dotted key in front of the last one, and the last one. -/
def keyPath : Nat → Scan (List String × String)
  | 0 => failure
  | left + 1 => do
    skipSpaces
    let key ← simpleKey
    skipSpaces
    if (← front) == some '.' then
      skip 1
      let (path, last) ← keyPath left
      pure (key :: path, last)
    else pure ([], key)

def key : Scan (List String × String) := keyPath deepest

mutual
/-- A value.  `fuel` bounds the number of steps, and each one takes a character.  `left` is
how much deeper the brackets may go. -/
def value : Nat → Nat → Scan Item
  | 0, _ => failure
  | fuel + 1, left => do
    match ← front with
    | some '[' =>
      if left = 0 then failure
      skip 1
      return .array (← arrayItems fuel (left - 1))
    | some '\x7b' =>
      if left = 0 then failure
      skip 1
      skipSpaces
      if (← front) == some '\x7d' then
        skip 1
        return .closed []
      else return .closed (← closedEntries fuel (left - 1) [])
    | _ => return .scalar (← scalar)

def arrayItems : Nat → Nat → Scan (List Item)
  | 0, _ => failure
  | fuel + 1, left => do
    skipGaps
    if (← front) == some ']' then
      skip 1
      return []
    else
      let item ← value fuel left
      skipGaps
      if (← front) == some ',' then
        skip 1
        return item :: (← arrayItems fuel left)
      else
        exactly ']'
        return [item]

def closedEntries : Nat → Nat → Entries → Scan Entries
  | 0, _, _ => failure
  | fuel + 1, left, entries => do
    let (path, last) ← key
    exactly '='
    skipSpaces
    let item ← value fuel left
    skipSpaces
    let entries ← addValue path last item .header entries
    if (← front) == some ',' then
      skip 1
      closedEntries fuel left entries
    else
      exactly '\x7d'
      return entries
end

/-- The table that the next lines belong to, as path from the whole text. -/
abbrev Current := List String

/-- A header: the path with the table it opens, and the text with that table. -/
def header (root : Entries) : Scan (Current × Entries) := do
  skip 1
  if (← front) == some '[' then
    skip 1
    let (path, last) ← key
    exactly ']'
    exactly ']'
    restOfLine
    return (path ++ [last], ← openElement path last root)
  else
    let (path, last) ← key
    exactly ']'
    restOfLine
    return (path ++ [last], ← openTable path last root)

def setting (fuel : Nat) (current : Current) (root : Entries) : Scan Entries := do
  let (path, last) ← key
  exactly '='
  skipSpaces
  let item ← value fuel deepest
  restOfLine
  editAt false (addValue path last item) current .header root

/-- All lines.  Each one takes at least one character. -/
def lines : Nat → Current → Entries → Scan Entries
  | 0, _, root => do
    if (← get).isEmpty then return root else failure
  | fuel + 1, current, root => do
    skipSpaces
    match ← get with
    | [] => return root
    | '[' :: _ =>
      let (current, root) ← header root
      lines fuel current root
    | c :: _ =>
      if c == '#' || c == '\n' || c == '\r' then
        restOfLine
        lines fuel current root
      else lines fuel current (← setting fuel current root)

def text : Scan Entries := do
  let s ← get
  let s := if s.head? == some '\uFEFF' then s.drop 1 else s
  set s
  lines (s.length + 1) [] []

/-- What a text says, in the form that typed data is read from. -/
def ofString? (s : String) : Option Json.Document := do
  some (Item.table .header (← text.run? s)).document

end Toml
end TaskGen
