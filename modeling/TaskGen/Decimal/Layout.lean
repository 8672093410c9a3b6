import TaskGen.Decimal.Shortest

namespace TaskGen
namespace Decimal

/-- How a decimal number is written. -/
structure Layout where
  /-- For the power of ten of the first digit: written without an exponent. -/
  positional : Int → Bool
  /-- Follows a number without a fraction that is written without an exponent. -/
  wholeMark : String

namespace Layout

def zeros (n : Nat) : String := String.ofList (List.replicate n '0')

/-- An exponent has its sign and as few digits as it needs. -/
def writeSize (l : Layout) (s : Scientific) : String :=
  let text := toString s.digits
  let count : Nat := text.length
  let first : Int := s.exponent + (count : Int) - 1
  if l.positional first then
    match s.exponent with
    | .ofNat k => text ++ (if s.digits = 0 then "" else zeros k) ++ l.wholeMark
    | .negSucc k =>
      if k + 1 < count then
        (text.take (count - (k + 1))).toString ++ "." ++ (text.drop (count - (k + 1))).toString
      else "0." ++ zeros (k + 1 - count) ++ text
  else
    let head := (text.take 1).toString
    let tail := (text.drop 1).toString
    let sign := if first < 0 then "-" else "+"
    head ++ (if tail.isEmpty then "" else "." ++ tail) ++ "e" ++ sign ++ toString first.natAbs

/-- The shortest decimal number that reads back, or a name for what is no number. -/
def write (l : Layout) (x : Float) : String :=
  match Binary.ofFloat? x with
  | some (negative, b) => (if negative then "-" else "") ++ l.writeSize (shortest b)
  | none => if x.isNaN then "NaN" else if x < 0 then "-inf" else "inf"

end Layout

/-- Every number in full: no exponent, and no fraction where there is none. -/
def plain : Layout := ⟨fun _ => true, ""⟩

end Decimal
end TaskGen
