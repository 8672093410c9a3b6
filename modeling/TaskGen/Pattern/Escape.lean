import TaskGen.Pattern.Engine
import TaskGen.Text.Numeric

/-!
Modes, and what a backslash begins.
-/

namespace TaskGen
namespace Pattern

/-- Modes that a pattern can switch for the rest of a group. -/
structure Mode where
  ignoreCase : Bool := false
  multiLine : Bool := false
  dotAll : Bool := false
  crlf : Bool := false
  /-- Blanks between the parts have no meaning, and a number sign begins a comment. -/
  verbose : Bool := false
  unicode : Bool := true

/-- Skip blanks and comments, up to the end of a line.  The flag tells whether a comment
is open. -/
def skipBlanks : Bool → List Char → List Char
  | _, [] => []
  | true, c :: rest => skipBlanks (c != '\n') rest
  | false, c :: rest =>
    if Text.isBlank c then skipBlanks false rest
    else if c = '#' then skipBlanks true rest
    else c :: rest

def Mode.skip (m : Mode) (s : List Char) : List Char := if m.verbose then skipBlanks false s else s

/-- A part of a pattern that is no bracket and no operator. -/
inductive Primitive where
  | char (c : Char)
  | set (s : CharSet)
  | look (l : Look)

/-- Characters with a meaning of their own, which a backslash takes away. -/
def isMeta (c : Char) : Bool := "\\.+*?()|[]\x7b\x7d^$#&-~".toList.contains c

def isEscapable (c : Char) : Bool :=
  isMeta c || (c.toNat < 128 && !c.isAlphanum && c != '<' && c != '>')

def scalar? (n : Nat) : Option Char :=
  if n < 0xD800 ∨ (0xE000 ≤ n ∧ n < 0x110000) then some (Char.ofNat n) else none

def readHexDigits (m : Mode) : Nat → Nat → List Char → Option (Nat × List Char)
  | 0, n, s => some (n, s)
  | _ + 1, _, [] => none
  | count + 1, n, c :: rest => do
    readHexDigits m count (n * 16 + (← Text.hexValue? c)) (m.skip rest)

/-- Hexadecimal digits up to a closing brace.  `digits` counts them. -/
def readHexBrace (m : Mode) : Nat → Nat → Nat → List Char → Option (Nat × List Char)
  | 0, _, _, _ => none
  | fuel + 1, digits, n, s =>
    match s with
    | [] => none
    | '\x7d' :: rest => if digits = 0 then none else some (n, m.skip rest)
    | c :: rest => do readHexBrace m fuel (digits + 1) (n * 16 + (← Text.hexValue? c)) (m.skip rest)

/-- Two digits stand for a byte.  Without the Unicode mode there is no character for a high one. -/
def Mode.hasByte (m : Mode) (count n : Nat) : Bool := m.unicode || count != 2 || n < 128

def readHex (m : Mode) (count : Nat) (s : List Char) : Option (Primitive × List Char) := do
  let (n, rest) ←
    match m.skip s with
    | '\x7b' :: rest => readHexBrace m (rest.length + 1) 0 0 (m.skip rest)
    | s => (readHexDigits m count 0 s).filter fun x => m.hasByte count x.1
  some (.char (← scalar? n), rest)

/-- A name up to a closing brace, without blanks. -/
def readBraceName (m : Mode) (allowed : Char → Bool) :
    Nat → List Char → List Char → Option (List Char × List Char)
  | 0, _, _ => none
  | fuel + 1, name, s =>
    match s with
    | '\x7d' :: rest => some (name, rest)
    | c :: rest =>
      if allowed c then readBraceName m allowed fuel (name ++ [c]) (m.skip rest) else none
    | [] => none

section
variable (E : Engine)

def Mode.fold (m : Mode) (s : CharSet) : CharSet :=
  if m.ignoreCase then
    .anyCase (if m.unicode then E.variants else fun c => [c, c.toLower, c.toUpper]) s
  else s

def Mode.word (m : Mode) : CharSet := if m.unicode then .table E.word else .asciiWord

/-- A complement needs the Unicode mode, because there are bytes in it that are no characters
otherwise. -/
def Mode.negate? (m : Mode) (negated : Bool) (s : CharSet) : Option CharSet :=
  if !negated then some s
  else if m.unicode then some (.complement s)
  else none

def isBoundaryName (c : Char) : Bool := c.isAlpha || c == '-'

/-- A word boundary may have a name in braces, which says what kind it is.  Other braces count
repetitions. -/
def readBoundary (m : Mode) (s : List Char) : Option (Primitive × List Char) :=
  match s with
  | '\x7b' :: inner =>
    match m.skip inner with
    | [] => none
    | c :: rest =>
      if isBoundaryName c then do
        let (name, rest) ← readBraceName m isBoundaryName (rest.length + 2) [] (c :: rest)
        match String.ofList name with
        | "start" => some (.look (.wordStart (m.word E)), rest)
        | "end" => some (.look (.wordEnd (m.word E)), rest)
        | "start-half" => some (.look (.notAfterWord (m.word E)), rest)
        | "end-half" => some (.look (.notBeforeWord (m.word E)), rest)
        | _ => none
      else some (.look (.wordBoundary (m.word E)), s)
  | s => some (.look (.wordBoundary (m.word E)), s)

/-- The name of a property: one character, or the text between braces. -/
def readPropertyName (m : Mode) (s : List Char) : Option (List Char × List Char) :=
  match m.skip s with
  | [] => none
  | '\\' :: _ => none
  | '\x7b' :: rest => readBraceName m (fun _ => true) (rest.length + 1) [] (m.skip rest)
  | c :: rest => some ([c], rest)

/-- What is on both sides of the first such mark. -/
def splitAtMark? (mark : List Char) : List Char → Option (List Char × List Char)
  | [] => none
  | c :: rest =>
    if mark.isPrefixOf (c :: rest) then some ([], (c :: rest).drop mark.length)
    else (splitAtMark? mark rest).map fun p => (c :: p.1, p.2)

/-- The characters with the property of this name.  A mark in the name puts the value behind it,
and one of the marks stands for all other values. -/
def namedProperty? (name : List Char) : Option (Bool × (Char → Bool)) :=
  let ask := fun (different : Bool) (p : List Char × List Char) =>
    (E.property? (String.ofList p.1) (some (String.ofList p.2))).map fun has => (different, has)
  match splitAtMark? ['!', '='] name with
  | some p => ask true p
  | none =>
    match (splitAtMark? [':'] name).or (splitAtMark? ['='] name) with
    | some p => ask false p
    | none => (E.property? (String.ofList name) none).map fun has => (false, has)

/-- The characters with a property, or all others. -/
def Mode.property? (m : Mode) (negated : Bool) (name : List Char) : Option CharSet := do
  let (different, has) ← namedProperty? E name
  if m.unicode then m.negate? (negated != different) (m.fold E (.table has)) else none

def readProperty (m : Mode) (negated : Bool) (s : List Char) :
    Option (Primitive × List Char) := do
  let (name, rest) ← readPropertyName m s
  some (.set (← m.property? E negated name), rest)

def letterClass? (m : Mode) (c : Char) : Option (Option CharSet) :=
  let pick := fun (unicode ascii : CharSet) => some (some (if m.unicode then unicode else ascii))
  let rest := fun (s : CharSet) => some (m.negate? true s)
  match c with
  | 'd' => pick (.table E.decimal) .asciiDecimal
  | 's' => pick (.table Text.isBlank) .asciiBlank
  | 'w' => pick (.table E.word) .asciiWord
  | 'D' => rest (.table E.decimal)
  | 'S' => rest (.table Text.isBlank)
  | 'W' => rest (.table E.word)
  | _ => none

def readEscape (m : Mode) : List Char → Option (Primitive × List Char)
  | [] => none
  | 'x' :: rest => readHex m 2 rest
  | 'u' :: rest => readHex m 4 rest
  | 'U' :: rest => readHex m 8 rest
  | 'p' :: rest => readProperty E m false rest
  | 'P' :: rest => readProperty E m true rest
  | c :: rest =>
    match letterClass? E m c with
    | some s => s.map fun s => (.set s, rest)
    | none =>
      if isEscapable c then some (.char c, rest)
      else
        match c with
        | 'a' => some (.char '\x07', rest)
        | 'f' => some (.char '\x0c', rest)
        | 't' => some (.char '\t', rest)
        | 'n' => some (.char '\n', rest)
        | 'r' => some (.char '\r', rest)
        | 'v' => some (.char '\x0b', rest)
        | 'A' => some (.look .textStart, rest)
        | 'z' => some (.look .textEnd, rest)
        | 'b' => readBoundary E m rest
        | 'B' => some (.look (.noWordBoundary (m.word E)), rest)
        | '<' => some (.look (.wordStart (m.word E)), rest)
        | '>' => some (.look (.wordEnd (m.word E)), rest)
        | _ => none

end
end Pattern
end TaskGen
