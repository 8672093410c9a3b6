import TaskGen.Instant
import TaskGen.Json.Document
import TaskGen.Text.Scan
import TaskGen.Toml.Quoted

namespace TaskGen
namespace Toml

open Scan

/-- The digits behind a first one.  A single underscore may stand between two digits. -/
def moreDigits (isDigit : Char → Bool) : List Char → List Char × List Char
  | '_' :: d :: rest =>
    if isDigit d then
      let (ds, rest) := moreDigits isDigit rest
      (d :: ds, rest)
    else ([], '_' :: d :: rest)
  | d :: rest =>
    if isDigit d then
      let (ds, rest) := moreDigits isDigit rest
      (d :: ds, rest)
    else ([], d :: rest)
  | [] => ([], [])

def someDigits (isDigit : Char → Bool) : Scan (List Char) := do
  let first ← one isDigit
  let (ds, rest) := moreDigits isDigit (← get)
  set rest
  pure (first :: ds)

/-- A number without leading zeros. -/
def wholeDigits : Scan (List Char) := do
  if (← front) == some '0' then
    skip 1
    pure ['0']
  else someDigits Char.isDigit

def integer (n : Int) : Scan Json.Document :=
  if Int64.minValue.toInt ≤ n ∧ n ≤ Int64.maxValue.toInt then pure (.number (some (.int n))) else failure

/-- A number in base 16, 8 or 2. -/
def radixNumber (radix : Nat) : Scan Json.Document := do
  let ds ← someDigits fun c => (Text.hexValue? c).any (· < radix)
  integer ((ds.filterMap Text.hexValue?).foldl (fun n d => radix * n + d) 0 : Nat)

/-- The double next to a decimal number.  Exponents that are far out of range are not
computed. -/
def double (digits : Nat) (exponent : Int) : Float :=
  let first : Int := exponent + (toString digits).length
  if digits = 0 ∨ first < -400 then 0
  else if 400 < first then 1 / 0
  else if 0 ≤ exponent then Float.ofScientific (digits * Nat.pow 10 exponent.toNat) false 0
  else Float.ofScientific digits true exponent.natAbs

/-- A double may not be too large, but it may be too small. -/
def doubleNumber (negative : Bool) (x : Float) : Scan Json.Document :=
  if !negative && x.isInf then failure else pure (.number (some (.float (if negative then -x else x))))

def sign : Scan (Option Bool) := do
  match ← front with
  | some '+' => skip 1; pure (some false)
  | some '-' => skip 1; pure (some true)
  | _ => pure none

def exponent : Scan Int := do
  let negative := (← sign).getD false
  let n := valueOf (← someDigits Char.isDigit)
  pure (if negative then -(n : Int) else n)

def special (negative : Bool) (x : Float) : Scan Json.Document := do
  skip 3
  pure (.number (some (.float (if negative then -x else x))))

def number : Scan Json.Document := do
  let prefixed ← match (← get).take 2 with
    | ['0', 'x'] => pure (some 16)
    | ['0', 'o'] => pure (some 8)
    | ['0', 'b'] => pure (some 2)
    | _ => pure none
  if let some radix := prefixed then
    skip 2
    radixNumber radix
  else
    let negative := (← sign).getD false
    if ← startsWith "inf" then special negative (1 / 0)
    else if ← startsWith "nan" then special negative (0 / 0)
    else
      let whole ← wholeDigits
      let (fraction, pointed) ←
        if (← front) == some '.' then
          skip 1
          pure (← someDigits Char.isDigit, true)
        else pure ([], false)
      let next ← front
      if next == some 'e' ∨ next == some 'E' then
        skip 1
        let e ← exponent
        doubleNumber negative (double (valueOf (whole ++ fraction)) (e - fraction.length))
      else if pointed then
        doubleNumber negative (double (valueOf (whole ++ fraction)) (-fraction.length))
      else
        let n := valueOf whole
        integer (if negative then -(n : Int) else n)

/-! ### Dates -/

/-- Exactly so many digits, and their number in the given range. -/
def fixed (count low high : Nat) : Scan Nat := do
  let ds ← digits count
  let n := valueOf ds
  if ds.length = count ∧ low ≤ n ∧ n ≤ high then pure n else failure

def clockTime : Scan Unit := do
  let _ ← fixed 2 0 23
  exactly ':'
  let _ ← fixed 2 0 59
  exactly ':'
  let _ ← fixed 2 0 60
  if (← front) == some '.' then
    skip 1
    if (← takeWhile Char.isDigit).isEmpty then failure

def clockOffset : Scan Unit := do
  match ← front with
  | some 'Z' => skip 1
  | some 'z' => skip 1
  | some '+' => skip 1; hours
  | some '-' => skip 1; hours
  | _ => pure ()
where
  hours : Scan Unit := do
    let _ ← fixed 2 0 23
    exactly ':'
    let _ ← fixed 2 0 59

/-- A time begins here. -/
def isTime : List Char → Bool
  | a :: b :: ':' :: _ => a.isDigit && b.isDigit
  | _ => false

/-- A date begins here. -/
def isDate : List Char → Bool
  | a :: b :: c :: d :: '-' :: _ => a.isDigit && b.isDigit && c.isDigit && d.isDigit
  | _ => false

/-- No setting is a date.  So a date is kept as an object with a member that no record
asks for. -/
def someDate : Json.Document := .object 0 [(some "date", .string (some ""))]

def date : Scan Json.Document := do
  let year ← fixed 4 0 9999
  exactly '-'
  let month ← fixed 2 1 12
  exactly '-'
  let _ ← fixed 2 1 (Instant.daysInMonth year month)
  match ← get with
  | c :: rest =>
    if (c == 'T' || c == 't' || c == ' ') && isTime rest then
      skip 1
      clockTime
      clockOffset
  | [] => pure ()
  pure someDate

/-- A value without brackets. -/
def scalar : Scan Json.Document := do
  let s ← get
  match s with
  | '"' :: _ => return .string (some (← string))
  | '\'' :: _ => return .string (some (← string))
  | 't' :: 'r' :: 'u' :: 'e' :: rest => set rest; return .bool true
  | 'f' :: 'a' :: 'l' :: 's' :: 'e' :: rest => set rest; return .bool false
  | _ =>
    if isDate s then date
    else if isTime s then
      clockTime
      return someDate
    else number

end Toml
end TaskGen
