import TaskGen.Text.Scan

namespace TaskGen

/-- A point in time: the day, counted from 1970-01-01, the second of the day, and the
nanosecond.  Nanoseconds from 10 ^ 9 on belong to a leap second. -/
structure Instant where
  day : Int
  second : Nat
  nano : Nat
  deriving DecidableEq, Repr

namespace Instant

def isLeapYear (year : Int) : Bool := year % 4 == 0 && (year % 100 != 0 || year % 400 == 0)

def daysInMonth (year : Int) (month : Nat) : Nat :=
  if month = 2 then (if isLeapYear year then 29 else 28)
  else if month = 4 ∨ month = 6 ∨ month = 9 ∨ month = 11 then 30
  else 31

/-- The days from 1970-01-01 to the first day of a year. -/
def daysToYear (year : Int) : Int :=
  let y := year - 1
  365 * y + y / 4 - y / 100 + y / 400 - 719162

def daysToMonth (year : Int) : Nat → Nat
  | 0 => 0
  | 1 => 0
  | month + 1 => daysToMonth year month + daysInMonth year month

def ofDate (year : Int) (month day : Nat) : Int :=
  daysToYear year + daysToMonth year month + (day - 1 : Nat)

/-- The year of a day.  The mean length of a year gives the year up to one, so the estimate
is never too small and at most two too large. -/
def yearOf (day : Int) : Int :=
  let estimate := (day + 719162) * 400 / 146097 + 2
  if daysToYear estimate ≤ day then estimate
  else if daysToYear (estimate - 1) ≤ day then estimate - 1
  else estimate - 2

/-- Month and day of the month for a day of the year. -/
def monthOf (year : Int) (dayOfYear : Nat) : Nat × Nat :=
  let month := ((List.range 12).map (· + 1)).findRev? fun m => daysToMonth year m ≤ dayOfYear
  let month := month.getD 1
  (month, dayOfYear - daysToMonth year month + 1)

/-! ### Reading -/

namespace Scan

open TaskGen.Scan

/-- A number of at most two digits from the given range, with blanks in front. -/
def field (low high : Nat) : Scan Nat := do
  skipBlanks
  let n := valueOf (← digits 2)
  if low ≤ n ∧ n ≤ high then pure n else failure

def separator (c : Char) : Scan Unit := do
  skipBlanks
  exactly c

/-- A year has at most four digits, or any number of them behind a sign. -/
def year : Scan Int := do
  skipBlanks
  let s ← get
  match s with
  | '-' :: rest => set rest; pure (-(valueOf (← digits s.length) : Int))
  | '+' :: rest => set rest; pure (valueOf (← digits s.length))
  | _ => pure (valueOf (← digits 4))

/-- The fraction of a second.  Digits behind the ninth do not count. -/
def fraction : Scan Nat := do
  match ← get with
  | '.' :: rest =>
    set rest
    let ds ← digits 9
    skipWhile Char.isDigit
    pure (valueOf ds * Nat.pow 10 (9 - ds.length))
  | _ => pure 0

def digit (most : Char) : Scan Nat := do
  pure ((← one fun c => '0' ≤ c && c ≤ most).toNat - 48)

/-- How far local time is ahead, in seconds. -/
def offset : Scan Int := do
  let s ← get
  match s with
  | 'Z' :: rest => set rest; pure 0
  | 'z' :: rest => set rest; pure 0
  | _ =>
    if (s.take 3).map Char.toUpper = ['U', 'T', 'C'] then
      set (s.drop 3)
      pure 0
    else
      let sign ← one fun c => c == '+' || c == '-' || c == '−'
      let h ← digit '9'
      let h' ← digit '9'
      skipWhile fun c => c == ':' || Text.isBlank c
      let m ← digit '5'
      let m' ← digit '9'
      let seconds : Nat := (h * 10 + h') * 3600 + (m * 10 + m') * 60
      if 86400 ≤ seconds then failure
      pure (if sign == '+' then (seconds : Int) else -(seconds : Int))

end Scan

def firstYear : Int := -262143

def lastYear : Int := 262142

def isInRange (day : Int) : Bool := daysToYear firstYear ≤ day && day < daysToYear (lastYear + 1)

open TaskGen.Scan Instant.Scan in
/-- A date and a time as in RFC 3339, where blanks may stand between the parts. -/
def scan : Scan Instant := do
  let y ← year
  separator '-'
  let m ← field 1 12
  separator '-'
  let d ← field 1 31
  let _ ← one fun c => c == 't' || c == 'T' || c == ' '
  let h ← field 0 23
  separator ':'
  let min ← field 0 59
  separator ':'
  let s ← field 0 60
  let n ← fraction
  skipBlanks
  let off ← offset
  skipBlanks
  if !(← get).isEmpty ∨ y < firstYear ∨ lastYear < y ∨ daysInMonth y m < d then failure
  let leap := s = 60
  let shifted := (h * 3600 + min * 60 + (if leap then 59 else s) : Nat) - off
  let day := ofDate y m d + shifted / 86400
  if !isInRange day then failure
  pure ⟨day, (shifted % 86400).toNat, if leap then n + 1000000000 else n⟩

def ofString? (s : String) : Option Instant := scan.run? s

/-! ### Writing -/

def padded (width n : Nat) : String :=
  let s := toString n
  String.ofList (List.replicate (width - s.length) '0') ++ s

/-- Years outside of four digits have a sign. -/
def yearText (year : Int) : String :=
  if 0 ≤ year ∧ year ≤ 9999 then padded 4 year.toNat
  else (if year < 0 then "-" else "+") ++ padded 4 year.natAbs

/-- Three, six or nine digits, whatever is enough. -/
def fractionText (nano : Nat) : String :=
  if nano = 0 then ""
  else if nano % 1000000 = 0 then "." ++ padded 3 (nano / 1000000)
  else if nano % 1000 = 0 then "." ++ padded 6 (nano / 1000)
  else "." ++ padded 9 nano

def text (i : Instant) : String :=
  let year := yearOf i.day
  let (month, day) := monthOf year (i.day - daysToYear year).toNat
  let leap := 1000000000 ≤ i.nano
  let second := i.second % 60 + (if leap then 1 else 0)
  let nano := if leap then i.nano - 1000000000 else i.nano
  yearText year ++ "-" ++ padded 2 month ++ "-" ++ padded 2 day ++ "T" ++
    padded 2 (i.second / 3600) ++ ":" ++ padded 2 (i.second / 60 % 60) ++ ":" ++ padded 2 second ++
    fractionText nano ++ "Z"

end Instant
end TaskGen
