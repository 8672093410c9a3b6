import TaskGen.Pattern.Brackets

/-!
Groups, repetitions and alternatives, and whole patterns.
-/

namespace TaskGen
namespace Pattern

/-- Switch modes by their letters, up to the colon or bracket behind them, which stays.
A letter occurs once, and so does the minus sign, which is not the last. -/
def readModes : List Char → Mode → List Char → Option (Mode × List Char)
  | _, _, [] => none
  | seen, m, c :: rest =>
    if c = ':' ∨ c = ')' then
      if seen.head? = some '-' then none else some (m, c :: rest)
    else if seen.contains c then none
    else
      let on := !seen.contains '-'
      let next := fun (m : Mode) => readModes (c :: seen) m rest
      match c with
      | '-' => next m
      | 'i' => next { m with ignoreCase := on }
      | 'm' => next { m with multiLine := on }
      | 's' => next { m with dotAll := on }
      | 'R' => next { m with crlf := on }
      | 'x' => next { m with verbose := on }
      | 'u' => next { m with unicode := on }
      | 'U' => next m
      | _ => none

section
variable (E : Engine)

def isNameStart (c : Char) : Bool := c == '_' || E.alphabetic c

def isNameChar (c : Char) : Bool :=
  isNameStart E c || c == '.' || c == '[' || c == ']' || E.numeric c

def readName (s : List Char) : Option (String × List Char) :=
  let name := s.takeWhile (· != '>')
  match s.dropWhile (· != '>') with
  | '>' :: rest =>
    match name with
    | [] => none
    | c :: cs =>
      if isNameStart E c && cs.all (isNameChar E) then some (String.ofList name, rest) else none
  | _ => none

end

/-- What stands behind an opening bracket. -/
inductive GroupHead where
  | modes (m : Mode)
  | opened (m : Mode) (name : Option String)

def readGroupHead (E : Engine) (m : Mode) (s : List Char) : Option (GroupHead × List Char) :=
  match m.skip s with
  | '?' :: '=' :: _ | '?' :: '!' :: _ | '?' :: '<' :: '=' :: _ | '?' :: '<' :: '!' :: _ => none
  | '?' :: 'P' :: '<' :: rest | '?' :: '<' :: rest => do
    let (name, rest) ← readName E rest
    some (.opened m (some name), rest)
  | '?' :: rest => do
    match ← readModes [] m rest with
    | (inner, ')' :: after) => if rest.head? = some ')' then none else some (.modes inner, after)
    | (inner, _ :: after) => some (.opened inner none, after)
    | (_, []) => none
  | s => some (.opened m none, s)

/-- A number with blanks around it and, in verbose mode, between its digits. -/
def readCount (m : Mode) (s : List Char) : Option Nat × List Char :=
  let rec digits : Nat → Option Nat → List Char → Option Nat × List Char
    | 0, n, s => (n, s)
    | fuel + 1, n, s =>
      match s with
      | c :: rest =>
        if c.isDigit then digits fuel (some (n.getD 0 * 10 + (c.toNat - 48))) (m.skip rest)
        else (n, s)
      | [] => (n, [])
  let s := s.dropWhile Text.isBlank
  let (n, rest) := digits (s.length + 1) none s
  (n, m.skip (rest.dropWhile Text.isBlank))

/-- Counts are numbers of 32 bits. -/
def countLimit : Nat := UInt32.size

/-- How often a counted repetition repeats: the text between its braces. -/
def readCounts (m : Mode) (s : List Char) : Option (Nat × Option Nat × List Char) := do
  let s := m.skip s
  let (low, rest) := readCount m s
  let low ← low
  if countLimit ≤ low then none
  match rest with
  | '\x7d' :: rest => some (low, some low, rest)
  | ',' :: rest =>
    match m.skip rest with
    | '\x7d' :: rest => some (low, none, rest)
    | rest => do
      let (high, rest) := readCount m rest
      let high ← high
      if countLimit ≤ high ∨ high < low then none
      match rest with
      | '\x7d' :: rest => some (low, some high, rest)
      | _ => none
  | _ => none

def Expr.ofItems : List Expr → Expr
  | [] => .empty
  | [e] => e
  | es => .sequence es

def Expr.ofBranches : List Expr → Expr
  | [e] => e
  | es => .choice es

/-- The parts of a sequence, in reverse order.  Switched modes are a part, too, but not
one that can be repeated. -/
abbrev Parts := List (Option Expr)

def Parts.toExpr (ps : Parts) : Expr := .ofItems (ps.reverse.map (·.getD .empty))

def repeatLast (low : Nat) (high : Option Nat) : Parts → Option Parts
  | some e :: ps => some (some (.repeated e low high) :: ps)
  | _ => none

/-- A question mark behind an operator only changes which match is preferred. -/
def skipLazy : List Char → List Char
  | '?' :: rest => rest
  | s => s

def Mode.dot? (m : Mode) : Option CharSet :=
  if !m.unicode then none
  else if m.dotAll then some .all
  else if m.crlf then some (.complement (.ofRanges [('\n', '\n'), ('\r', '\r')]))
  else some (.complement (.char '\n'))

def Mode.lineStart (m : Mode) : Look :=
  if m.multiLine then if m.crlf then .crlfLineStart else .lineStart else .textStart

def Mode.lineEnd (m : Mode) : Look :=
  if m.multiLine then if m.crlf then .crlfLineEnd else .lineEnd else .textEnd

section
variable (E : Engine)

def Primitive.toExpr (m : Mode) : Primitive → Expr
  | .char c => .oneOf (m.fold E (.char c)) 0
  | .set s => .oneOf s 0
  | .look l => .look l

/-- Read alternatives up to the end of the group.  `names` are the group names that are
taken, `branches` the alternatives before this one in reverse order. -/
def readChoice : Nat → Mode → List String → List Expr → Parts → List Char →
    Option (Expr × List String × List Char)
  | 0, _, _, _, _, _ => none
  | fuel + 1, m, names, branches, parts, s =>
    let finish := fun (rest : List Char) =>
      some (Expr.ofBranches (parts.toExpr :: branches).reverse, names, rest)
    let add := fun (e : Expr) (rest : List Char) =>
      readChoice fuel m names branches (some e :: parts) rest
    let again := fun (low : Nat) (high : Option Nat) (rest : List Char) => do
      readChoice fuel m names branches (← repeatLast low high parts) (skipLazy rest)
    match m.skip s with
    | [] => finish []
    | ')' :: rest => finish (')' :: rest)
    | '|' :: rest => readChoice fuel m names (parts.toExpr :: branches) [] rest
    | '(' :: rest => do
      match ← readGroupHead E m rest with
      | (.modes m, rest) => readChoice fuel m names branches (none :: parts) rest
      | (.opened inner name, rest) =>
        if name.any names.contains then none
        else
          match ← readChoice fuel inner (name.toList ++ names) [] [] rest with
          | (e, names, ')' :: rest) =>
            readChoice fuel m names branches (some (.group e) :: parts) rest
          | _ => none
    | '[' :: rest => do
      let (part, rest) ← readClass E m rest
      add (.oneOf part.set part.levels) rest
    | '?' :: rest => again 0 (some 1) rest
    | '*' :: rest => again 0 none rest
    | '+' :: rest => again 1 none rest
    | '\x7b' :: rest => do
      let (low, high, rest) ← readCounts m rest
      again low high (m.skip rest)
    | '.' :: rest => do add (.oneOf (← m.dot?) 0) rest
    | '^' :: rest => add (.look m.lineStart) rest
    | '$' :: rest => add (.look m.lineEnd) rest
    | '\\' :: rest => do
      let (p, rest) ← readEscape E m rest
      add (p.toExpr E m) rest
    | c :: rest => add (Primitive.toExpr E m (.char c)) rest

end

/-- Expressions that are nested more deeply are refused. -/
def deepest : Nat := 250

/-- The expression that a text is. -/
def Engine.parse? (E : Engine) (s : List Char) : Option Expr :=
  match readChoice E (s.length + 1) {} [] [] [] s with
  | some (e, _, []) => if e.depth ≤ deepest then some e else none
  | _ => none

def Engine.compile? (E : Engine) (s : List Char) : Option Expr :=
  (E.parse? s).filter (E.admits s)

end Pattern

/-- A pattern for whole identifiers. -/
structure Pattern where
  expr : Pattern.Expr

namespace Pattern

/-- A pattern has to match from the first to the last character.  So it is read as the
inner part of a group between the two ends of the text. -/
def anchored (s : List Char) : List Char := "^(?:".toList ++ s ++ ")$".toList

def Engine.ofString? (E : Engine) (s : String) : Option Pattern :=
  (E.compile? (anchored s.toList)).map Pattern.mk

def accepts (p : Pattern) (identifier : String) : Bool := p.expr.occursIn identifier.toList

end Pattern
end TaskGen
