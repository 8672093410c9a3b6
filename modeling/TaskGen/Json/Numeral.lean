import TaskGen.Json.Value

namespace TaskGen
namespace Json

/-- A number as it is spelled: its digits in the order of the text. -/
structure Numeral where
  negative : Bool
  whole : List Nat
  fraction : Option (List Nat)
  /-- Sign (true for a minus) and digits. -/
  exponent : Option (Bool × List Nat)

namespace Numeral

/-- The digits that count are those that fit into 64 bits. -/
def capacity : Nat := UInt64.size

/-- Read the digits before the point: the number they make and how many were left out
because there was no room for them. -/
def readWhole : Nat → List Nat → Nat × Nat
  | n, [] => (n, 0)
  | n, d :: rest =>
    if n * 10 + d < capacity then readWhole (n * 10 + d) rest else (n, rest.length + 1)

/-- Read on behind the point: the number and how many of the digits went into it. -/
def readFraction : Nat → List Nat → Nat × Nat
  | n, [] => (n, 0)
  | n, d :: rest =>
    if n * 10 + d < capacity then
      let (m, count) := readFraction (n * 10 + d) rest
      (m, count + 1)
    else (n, 0)

def ofDigits (ds : List Nat) : Nat := ds.foldl (fun n d => n * 10 + d) 0

def powerOfTen (n : Nat) : Float := Float.ofScientific 1 false n

/-- `x * 10 ^ e` in one multiplication or division where a double holds the power, with
divisions by `10 ^ 308` in front where it does not.  There is no value where the result
is too large. -/
def scale? (x : Float) (e : Int) : Option Float :=
  if x == 0 then some x
  else if 308 < e then none
  else if 0 ≤ e then
    let y := x * powerOfTen e.toNat
    if y.isInf then none else some y
  else if -308 ≤ e then some (x / powerOfTen e.natAbs)
  else scale? (x / powerOfTen 308) (e + 308)
termination_by e.natAbs

/-- The value of a spelled number, if it has one. -/
def value? (t : Numeral) : Option Number :=
  let (n, skipped) := readWhole 0 t.whole
  match t.fraction, t.exponent, skipped with
  | none, none, 0 =>
    if !t.negative then some (.int n)
    else if n = 0 ∨ capacity / 2 < n then some (.float (-n.toUInt64.toFloat))
    else some (.int (-(n : Int)))
  | fraction, exponent, skipped =>
    let (m, taken) := readFraction n (fraction.getD [])
    let shift : Int :=
      match exponent with
      | none => 0
      | some (minus, ds) => if minus then -(ofDigits ds : Int) else ofDigits ds
    (scale? m.toUInt64.toFloat ((skipped : Int) - taken + shift)).map fun x =>
      .float (if t.negative then -x else x)

end Numeral
end Json
end TaskGen
