import TaskGen.Decimal.Binary

namespace TaskGen
namespace Decimal

/-- A decimal number `digits * 10 ^ exponent`. -/
structure Scientific where
  digits : Nat
  exponent : Int

namespace Scientific

/-- Drop the zeros at the end of the digits.  `fuel` bounds how many. -/
def stripZeros : Nat → Scientific → Scientific
  | 0, s => s
  | fuel + 1, s =>
    if s.digits ≠ 0 ∧ s.digits % 10 = 0 then stripZeros fuel ⟨s.digits / 10, s.exponent + 1⟩
    else s

end Scientific

/-- Factors that bring `n * 2 ^ e` and `d * 10 ^ k` to a common unit: the first is for
`n`, the second for `d`. -/
def commonUnit (e k : Int) : Nat × Nat :=
  (Nat.pow 2 e.toNat * Nat.pow 10 (-k).toNat, Nat.pow 10 k.toNat * Nat.pow 2 (-e).toNat)

/-- The multiple of `10 ^ k` that reads back as the double `b`, if there is one next to
it: the nearer one of the two, the even one if they are equally near.  What reads back
lies between the midpoints to the neighbouring doubles.  A midpoint itself reads back
only if the mantissa is even. -/
def hit? (b : Binary) (k : Int) : Option Nat :=
  let (u, w) := commonUnit (b.exponent - 2) k
  let value := 4 * b.mantissa * u
  let low := (4 * b.mantissa - if b.narrowBelow then 1 else 2) * u
  let high := (4 * b.mantissa + 2) * u
  let closed := b.mantissa % 2 = 0
  let inside := fun d : Nat =>
    let x := d * w
    d ≠ 0 ∧ if closed then low ≤ x ∧ x ≤ high else low < x ∧ x < high
  let below := value / w
  let above := below + 1
  match decide (inside below), decide (inside above) with
  | false, false => none
  | true, false => some below
  | false, true => some above
  | true, true =>
    let left := value - below * w
    let right := above * w - value
    if left < right ∨ (left = right ∧ below % 2 = 0) then some below else some above

/-- The first hit on the grids `10 ^ k`, `10 ^ (k - 1)`, and so on. -/
def search (b : Binary) : Nat → Int → Scientific
  | 0, k => ⟨0, k⟩
  | fuel + 1, k =>
    match hit? b k with
    | some d => ⟨d, k⟩
    | none => search b fuel (k - 1)

/-- The fewest digits that read back as the double, and of those the nearest.  The
search starts at or one above the power of ten of the first digit.  Seventeen digits
always suffice. -/
def shortest (b : Binary) : Scientific :=
  if b.mantissa = 0 then ⟨0, 0⟩
  else
    let log2 : Int := (Nat.log2 b.mantissa : Int) + b.exponent
    (search b 22 ((log2 * 1233).fdiv 4096 + 1)).stripZeros 22

end Decimal
end TaskGen
