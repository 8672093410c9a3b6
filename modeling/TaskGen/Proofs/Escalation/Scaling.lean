import TaskGen.Escalation
import TaskGen.Proofs.Double.Products

/-!
What a size is scaled to.  The product of doubles is rounded, so it may differ from the exact one;
but a factor from 1 on makes no size smaller that doubles hold exactly.
-/

namespace TaskGen
namespace Escalation

open Double Decimal

variable {n m : Nat} {e : Int} {x : Float}

theorem ofFloat?_of_infinity (h : x.toModel.unpack = .infinity .positive) :
    Binary.ofFloat? x = none := by
  have hstands := standsFor x
  rw [h] at hstands
  cases hstands with
  | infinity hbiased _ => exact if_pos hbiased

theorem ofFloat?_of_atLeast {hpos : 0 < m} (h : x.toModel.unpack = .finite .positive m e hpos)
    (hm : AtLeast 52 n m e) :
    ∃ narrow, Binary.ofFloat? x = some (false, ⟨m, e, narrow⟩) := by
  have hstands := standsFor x
  rw [h] at hstands
  cases hstands with
  | short _ _ hfraction _ =>
    have := hm.1
    unfold fraction at hfraction
    omega
  | full hleast hgreatest hsign hmantissa hexponent =>
    have hnegative : (x.toBits.toNat / Binary.leastMantissa / 2048 == 1) = false := by
      change (x.toModel.toBits.toBitVec.toNat / 2 ^ 52 / 2048 == 1) = false
      rw [signOf_eq_positive hsign]
      rfl
    refine ⟨x.toBits.toNat % Binary.leastMantissa == 0 &&
      1 < x.toBits.toNat / Binary.leastMantissa % 2048,
      (if_neg hgreatest).trans ((if_neg hleast).trans ?_)⟩
    rw [hnegative, hmantissa, hexponent]
    rfl

/-- A size that reaches `n` is not rounded to less. -/
theorem le_ceil (h : AtLeast 52 n m e) (narrow : Bool) :
    n ≤ (⟨m, e, narrow⟩ : Binary).ceil := by
  obtain ⟨_, k, rfl, hle⟩ := h
  refine Nat.le_trans ?_ (Binary.floor_le_ceil _)
  cases he : (k : Int) - (52 : Nat) with
  | ofNat i =>
    rw [Int.ofNat_eq_natCast] at he
    rw [show k = i + 52 by omega, Nat.pow_add, ← Nat.mul_assoc] at hle
    exact Nat.le_of_mul_le_mul_right hle (Nat.two_pow_pos 52)
  | negSucc i =>
    rw [show 52 = i + 1 + k by omega, Nat.pow_add, ← Nat.mul_assoc] at hle
    exact (Nat.le_div_iff_mul_le (Nat.two_pow_pos _)).mpr
      (Nat.le_of_mul_le_mul_right hle (Nat.two_pow_pos k))

theorem le_scale {value : Nat} {factor : Float} (hvalue : value < 2 ^ 53) (h : 1 ≤ factor) :
    value ≤ scale value factor := by
  rcases Nat.eq_zero_or_pos value with rfl | hpos
  · exact Nat.zero_le _
  have hlargest : value ≤ Limits.largest := Nat.le_trans (Nat.le_of_lt hvalue) (by decide)
  rcases (Reaches.ofNat ⟨hpos, hvalue⟩).mul ⟨hpos, hvalue⟩ (.of_one_le h) with
    h | ⟨m, e, _, h, hm⟩
  · have hless : 0 < Float.ofNat value * factor := by
      rw [lt_iff, h]
      rfl
    simp only [scale, ofFloat?_of_infinity h, if_pos hless]
    exact hlargest
  · obtain ⟨narrow, hsize⟩ := ofFloat?_of_atLeast h hm
    simp only [scale, hsize]
    exact Nat.le_min.mpr ⟨le_ceil hm narrow, hlargest⟩

end Escalation
end TaskGen
