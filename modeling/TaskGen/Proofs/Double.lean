import Mathlib.Order.Compare

/-!
How doubles are compared, as their logical model has it: false whenever one of the two is no number.
-/

namespace TaskGen
namespace Double

open Float.Model

theorem compare_swap (a b : UnpackedFloat) :
    b.compare a = (a.compare b).map Ordering.swap := by
  have hfinite (d e : Int) (m n : Nat) :
      (compare e d).then (compare n m) = ((compare d e).then (compare m n)).swap := by
    rw [Ordering.swap_then, ← Std.OrientedOrd.eq_swap, ← Std.OrientedOrd.eq_swap]
  rcases a with (_ | _) | _ | (_ | _) | ⟨(_ | _), _, _, _⟩ <;>
    rcases b with (_ | _) | _ | (_ | _) | ⟨(_ | _), _, _, _⟩ <;>
    first
    | rfl
    | exact congrArg some (hfinite _ _ _ _)
    | exact congrArg (fun o => some o.swap) (hfinite _ _ _ _)

theorem compare_eq_none_iff (a b : UnpackedFloat) :
    a.compare b = none ↔ a.isNaN = true ∨ b.isNaN = true := by
  rcases a with (_ | _) | _ | (_ | _) | ⟨(_ | _), _, _, _⟩ <;>
    rcases b with (_ | _) | _ | (_ | _) | ⟨(_ | _), _, _, _⟩ <;>
    first
    | exact iff_of_true rfl (.inl rfl)
    | exact iff_of_true rfl (.inr rfl)
    | exact iff_of_false (Option.some_ne_none _)
        (not_or.mpr ⟨Bool.false_ne_true, Bool.false_ne_true⟩)

theorem lt_iff (x y : Float) :
    x < y ↔ x.toModel.unpack.compare y.toModel.unpack = some .lt := by
  change Float.lt x y = true ↔ _
  rw [Float.lt, decide_eq_true_eq]
  exact beq_iff_eq

theorem le_iff (x y : Float) :
    x ≤ y ↔ ∃ o, x.toModel.unpack.compare y.toModel.unpack = some o ∧ o.isLE = true := by
  change Float.le x y = true ↔ _
  rw [Float.le, decide_eq_true_eq]
  exact Option.any_eq_true _ _

theorem not_lt_iff (x y : Float) : ¬ x < y ↔ y ≤ x ∨ x.isNaN = true ∨ y.isNaN = true := by
  have hnan : x.toModel.unpack.compare y.toModel.unpack = none ↔
      x.isNaN = true ∨ y.isNaN = true := compare_eq_none_iff _ _
  rw [lt_iff, le_iff, compare_swap x.toModel.unpack, ← hnan]
  cases x.toModel.unpack.compare y.toModel.unpack with
  | none => simp
  | some o => cases o <;> simp

theorem not_lt_one_iff (x : Float) : ¬ x < 1 ↔ 1 ≤ x ∨ x.isNaN = true := by
  have hone : (1 : Float).isNaN = false := by decide +kernel
  rw [not_lt_iff, hone]
  simp only [Bool.false_eq_true, or_false]

end Double
end TaskGen
