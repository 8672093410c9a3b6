namespace TaskGen
namespace Decimal

/-- The size of a finite double: `mantissa * 2 ^ exponent`. -/
structure Binary where
  mantissa : Nat
  exponent : Int
  /-- The next smaller double is only half as far away as the next larger one. -/
  narrowBelow : Bool

/-- The mantissas of most doubles start here.  What is above it is stored as the fraction. -/
def Binary.leastMantissa : Nat := Nat.pow 2 52

/-- Sign and size of a double, if it is finite. -/
def Binary.ofFloat? (x : Float) : Option (Bool × Binary) :=
  let bits := x.toBits.toNat
  let fraction : Nat := bits % leastMantissa
  let biased : Nat := bits / leastMantissa % 2048
  let negative := bits / leastMantissa / 2048 == 1
  if biased = 2047 then none
  else if biased = 0 then some (negative, ⟨fraction, -1074, false⟩)
  else
    some (negative, ⟨leastMantissa + fraction, (biased : Int) - 1075, fraction == 0 && 1 < biased⟩)

/-- The least whole number that is not below the given size. -/
def Binary.ceil (b : Binary) : Nat :=
  match b.exponent with
  | .ofNat e => b.mantissa * Nat.pow 2 e
  | .negSucc e => (b.mantissa + Nat.pow 2 (e + 1) - 1) / Nat.pow 2 (e + 1)

/-- The greatest whole number that is not above the given size. -/
def Binary.floor (b : Binary) : Nat :=
  match b.exponent with
  | .ofNat e => b.mantissa * Nat.pow 2 e
  | .negSucc e => b.mantissa / Nat.pow 2 (e + 1)

theorem Binary.floor_le_ceil (b : Binary) : b.floor ≤ b.ceil := by
  obtain ⟨m, e, _⟩ := b
  cases e with
  | ofNat e => exact Nat.le_refl _
  | negSucc e =>
    have h : 0 < Nat.pow 2 (e + 1) := Nat.two_pow_pos (e + 1)
    exact Nat.div_le_div_right (Nat.le_sub_one_of_lt (Nat.lt_add_of_pos_right h))

end Decimal
end TaskGen
