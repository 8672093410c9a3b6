import TaskGen.Json.Document
import TaskGen.Json.Numeral
import TaskGen.Text.Numeric

namespace TaskGen
namespace Json

export Text (hexValue?)

inductive Token where
  | openArray
  | closeArray
  | openObject
  | closeObject
  | comma
  | colon
  /-- A value without brackets. -/
  | leaf (d : Document)

def isBreak (c : Char) : Bool := c == ' ' || c == '\t' || c == '\n' || c == '\r'

def digit? (c : Char) : Option Nat := if c.isDigit then some (c.toNat - 48) else none

/-- One unit of a string: a character, or sixteen bits that were given by number. -/
inductive Piece where
  | char (c : Char)
  | unit (n : Nat)

def isLead (n : Nat) : Bool := 0xD800 ≤ n && n < 0xDC00

def isTrail (n : Nat) : Bool := 0xDC00 ≤ n && n < 0xE000

/-- Units that form a pair are one character.  A unit that needs a partner and has none
spoils the string. -/
def joinPieces : List Piece → Option (List Char)
  | [] => some []
  | .char c :: rest => (joinPieces rest).map (c :: ·)
  | .unit n :: .unit m :: rest =>
    if isLead n then
      if isTrail m then
        (joinPieces rest).map (Char.ofNat (0x10000 + (n - 0xD800) * 0x400 + (m - 0xDC00)) :: ·)
      else none
    else if isTrail n then none
    else (joinPieces (.unit m :: rest)).map (Char.ofNat n :: ·)
  | .unit n :: rest =>
    if isLead n || isTrail n then none else (joinPieces rest).map (Char.ofNat n :: ·)

/-- Read up to the closing quote.  The second part is what follows it. -/
def readPieces : List Char → Option (List Piece × List Char)
  | '"' :: rest => some ([], rest)
  | '\\' :: 'u' :: a :: b :: c :: d :: rest => do
    let n := ((← hexValue? a) * 16 + (← hexValue? b)) * 256 +
      ((← hexValue? c) * 16 + (← hexValue? d))
    let (ps, rest) ← readPieces rest
    some (.unit n :: ps, rest)
  | '\\' :: e :: rest => do
    let c ←
      match e with
      | '"' => some '"'
      | '\\' => some '\\'
      | '/' => some '/'
      | 'b' => some (Char.ofNat 8)
      | 'f' => some (Char.ofNat 12)
      | 'n' => some '\n'
      | 'r' => some '\r'
      | 't' => some '\t'
      | _ => none
    let (ps, rest) ← readPieces rest
    some (.char c :: ps, rest)
  | c :: rest =>
    if c.toNat < 32 then none
    else do
      let (ps, rest) ← readPieces rest
      some (.char c :: ps, rest)
  | [] => none

def readDigits (s : List Char) : List Nat × List Char :=
  ((s.takeWhile Char.isDigit).filterMap digit?, s.dropWhile Char.isDigit)

/-- A number has no leading zeros, and digits on both sides of a point. -/
def readNumeral (negative : Bool) (s : List Char) : Option (Numeral × List Char) := do
  let (whole, rest) :=
    match s with
    | '0' :: rest => ([0], rest)
    | s => readDigits s
  if whole.isEmpty then none
  let (fraction, rest) ←
    match rest with
    | '.' :: rest =>
      let (ds, rest) := readDigits rest
      if ds.isEmpty then none else some (some ds, rest)
    | rest => some (none, rest)
  let (exponent, rest) ←
    match rest with
    | e :: rest' =>
      if e = 'e' ∨ e = 'E' then
        let (minus, digits) :=
          match rest' with
          | '+' :: r => (false, r)
          | '-' :: r => (true, r)
          | r => (false, r)
        let (ds, rest) := readDigits digits
        if ds.isEmpty then none else some (some (minus, ds), rest)
      else some (none, rest)
    | [] => some (none, [])
  some (⟨negative, whole, fraction, exponent⟩, rest)

/-- Read one token, and what follows it. -/
def readToken : List Char → Option (Token × List Char)
  | '[' :: rest => some (.openArray, rest)
  | ']' :: rest => some (.closeArray, rest)
  | '\x7b' :: rest => some (.openObject, rest)
  | '\x7d' :: rest => some (.closeObject, rest)
  | ',' :: rest => some (.comma, rest)
  | ':' :: rest => some (.colon, rest)
  | '"' :: rest => do
    let (ps, rest) ← readPieces rest
    some (.leaf (.string ((joinPieces ps).map String.ofList)), rest)
  | 'n' :: 'u' :: 'l' :: 'l' :: rest => some (.leaf .null, rest)
  | 't' :: 'r' :: 'u' :: 'e' :: rest => some (.leaf (.bool true), rest)
  | 'f' :: 'a' :: 'l' :: 's' :: 'e' :: rest => some (.leaf (.bool false), rest)
  | '-' :: rest => do
    let (n, rest) ← readNumeral true rest
    some (.leaf (.number n.value?), rest)
  | s => do
    let (n, rest) ← readNumeral false s
    some (.leaf (.number n.value?), rest)

/-- All tokens of a text.  Every token takes at least one character, so `fuel` need not
be more than the length. -/
def tokens? : Nat → List Char → Option (List Token)
  | fuel, s =>
    match s.dropWhile isBreak, fuel with
    | [], _ => some []
    | _ :: _, 0 => none
    | c :: rest, fuel + 1 => do
      let (t, rest) ← readToken (c :: rest)
      let ts ← tokens? fuel rest
      some (t :: ts)

/-- A container that is not closed yet, with what it holds so far in reverse order. -/
inductive Frame where
  | array (done : List Document)
  | object (done : List (Option String × Document)) (key : Option String)

/-- What the next token is taken for. -/
inductive Expected where
  | value
  | firstItem
  | firstKey
  | key
  | colon
  /-- A comma or the end of the container, behind a value. -/
  | separator (d : Document)

/-- A value begins. -/
def beginValue (stack : List Frame) : Token → Option (List Frame × Expected)
  | .leaf d => some (stack, .separator d)
  | .openArray => some (.array [] :: stack, .firstItem)
  | .openObject => some (.object [] none :: stack, .firstKey)
  | _ => none

/-- A name of an object begins. -/
def beginMember : List Frame → Token → Option (List Frame × Expected)
  | .object done _ :: outer, .leaf (.string k) => some (.object done k :: outer, .colon)
  | _, _ => none

/-- The container in front takes in the value behind which the token stands. -/
def endValue (d : Document) : List Frame → Token → Option (List Frame × Expected)
  | .array done :: outer, .comma => some (.array (d :: done) :: outer, .value)
  | .array done :: outer, .closeArray =>
    some (outer, .separator (.array (outer.length + 1) (d :: done).reverse))
  | .object done k :: outer, .comma => some (.object ((k, d) :: done) none :: outer, .key)
  | .object done k :: outer, .closeObject =>
    some (outer, .separator (.object (outer.length + 1) ((k, d) :: done).reverse))
  | _, _ => none

def readStep (stack : List Frame) (expected : Expected) (t : Token) :
    Option (List Frame × Expected) :=
  match expected, t, stack with
  | .firstItem, .closeArray, .array _ :: outer =>
    some (outer, .separator (.array (outer.length + 1) []))
  | .firstKey, .closeObject, .object _ _ :: outer =>
    some (outer, .separator (.object (outer.length + 1) []))
  | .value, t, stack => beginValue stack t
  | .firstItem, t, stack => beginValue stack t
  | .firstKey, t, stack => beginMember stack t
  | .key, t, stack => beginMember stack t
  | .colon, .colon, stack => some (stack, .value)
  | .colon, _, _ => none
  | .separator d, t, stack => endValue d stack t

def readSteps : List Frame → Expected → List Token → Option (List Frame × Expected)
  | stack, expected, [] => some (stack, expected)
  | stack, expected, t :: rest => do
    let (stack, expected) ← readStep stack expected t
    readSteps stack expected rest

namespace Document

/-- Read a text that holds one value and nothing else. -/
def parse? (text : List Char) : Option Document := do
  match ← readSteps [] .value (← tokens? text.length text) with
  | ([], .separator d) => some d
  | _ => none

def ofString? (text : String) : Option Document := parse? text.toList

end Document

def Value.ofString? (text : String) : Option Value := do (← Document.ofString? text).value?

end Json
end TaskGen
