import Mathlib
import TaskGen.Proofs.Double

/-!
What the product of two doubles does not fall below.  A double from 1 on has a mantissa of full
length and is a whole multiple of `2 ^ -52`.  The product of two such is cut behind the point or
behind its first 53 bits, so it does not fall below a whole number of 53 bits that it has reached.
-/

namespace TaskGen
namespace Double

open Float.Model UnpackedFloat

/-! ### Mantissas that are cut -/

theorem targetExponent_eq (t : Int) :
    Format.binary64.targetExponent t = max (t - 53) (-1074) := rfl

theorem mantissa_shiftRight (em : ExtendedMantissa) (k : Nat) :
    (em >>> k).mantissa = em.mantissa / 2 ^ k := by
  induction k with
  | zero => exact (Nat.div_one _).symm
  | succ k ih =>
    change (em >>> k).mantissa / 2 = _
    rw [ih, Nat.div_div_eq_div_mul, Nat.pow_succ]

theorem mantissa_shiftToTargetExponent (m : Nat) (e : Int) (accuracy : Accuracy) :
    (shiftToTargetExponent .binary64 m e accuracy).1.mantissa =
      m / 2 ^ (Format.binary64.targetExponent (totalExponent m e) - e).toNat := by
  have hmantissa : (ExtendedMantissa.ofMantissaAndAccuracy m accuracy).mantissa = m := by
    rcases accuracy with _ | (_ | _ | _) <;> rfl
  exact (mantissa_shiftRight _ _).trans (by rw [hmantissa])

theorem mantissa_le_roundedMantissa (em : ExtendedMantissa) :
    em.mantissa ≤ em.roundedMantissa := by
  rcases em with ⟨m, _ | _, _ | _⟩
  · exact Nat.le_refl m
  · exact Nat.le_refl m
  · exact Nat.le_add_right m (m % 2)
  · exact Nat.le_succ m

/-- The number `m * 2 ^ e` is at least `n`.  Its mantissa is of full length, and it is a whole
multiple of `2 ^ -d`. -/
def AtLeast (d n m : Nat) (e : Int) : Prop :=
  2 ^ 52 ≤ m ∧ ∃ k : Nat, e = k - d ∧ n * 2 ^ d ≤ m * 2 ^ k

variable {d n m : Nat} {e : Int}

/-- The bits that are dropped stand behind the point or behind the 53 bits of `n`. -/
theorem le_of_dropped (hn : n < 2 ^ 53) {k k' s : Nat} (h : n * 2 ^ d ≤ m * 2 ^ k)
    (hfull : 2 ^ 52 ≤ m / 2 ^ s) (hk : k' + d = s + k + 52) :
    n * 2 ^ 52 ≤ m / 2 ^ s * 2 ^ k' := by
  rcases Nat.lt_or_ge 52 k' with hlarge | hsmall
  · have hle : n ≤ 2 ^ k' :=
      Nat.le_trans (Nat.le_of_lt hn) (Nat.pow_le_pow_right (by decide) hlarge)
    rw [Nat.mul_comm (m / 2 ^ s)]
    exact Nat.mul_le_mul hle hfull
  · have hwhole : n * 2 ^ (52 - k') ≤ m / 2 ^ s := by
      rw [Nat.le_div_iff_mul_le (Nat.two_pow_pos s)]
      refine Nat.le_of_mul_le_mul_right ?_ (Nat.two_pow_pos k)
      rwa [Nat.mul_assoc, Nat.mul_assoc, ← Nat.pow_add, ← Nat.pow_add,
        show 52 - k' + (s + k) = d by omega]
    calc n * 2 ^ 52 = n * 2 ^ (52 - k') * 2 ^ k' := by
          rw [Nat.mul_assoc, ← Nat.pow_add, Nat.sub_add_cancel hsmall]
      _ ≤ m / 2 ^ s * 2 ^ k' := Nat.mul_le_mul_right _ hwhole

theorem AtLeast.shift (hn : 0 < n ∧ n < 2 ^ 53) (h : AtLeast d n m e) (accuracy : Accuracy) :
    AtLeast 52 n (shiftToTargetExponent .binary64 m e accuracy).1.mantissa
      (shiftToTargetExponent .binary64 m e accuracy).2 ∧
    (shiftToTargetExponent .binary64 m e accuracy).1.mantissa < 2 ^ 53 := by
  obtain ⟨hm, k, rfl, h⟩ := h
  have hm0 : m ≠ 0 := by omega
  have hlog : 52 ≤ m.log2 := (Nat.le_log2 hm0).mpr hm
  -- a number from 1 on is too large for the shortened mantissas at the least exponent
  have hone : d ≤ m.log2 + k := by
    have hlt : 2 ^ d < 2 ^ (m.log2 + 1 + k) :=
      calc 2 ^ d ≤ n * 2 ^ d := Nat.le_mul_of_pos_left _ hn.1
        _ ≤ m * 2 ^ k := h
        _ < 2 ^ (m.log2 + 1) * 2 ^ k :=
          Nat.mul_lt_mul_of_pos_right Nat.lt_log2_self (Nat.two_pow_pos k)
        _ = 2 ^ (m.log2 + 1 + k) := (Nat.pow_add _ _ _).symm
    have := (Nat.pow_lt_pow_iff_right (by decide : 1 < 2)).mp hlt
    omega
  have hshift : (Format.binary64.targetExponent (totalExponent m (k - d)) - (k - d)).toNat =
      m.log2 - 52 := by
    rw [targetExponent_eq, totalExponent]
    omega
  have hexponent : (shiftToTargetExponent .binary64 m (k - d) accuracy).2 =
      ((m.log2 + k - d : Nat) : Int) - (52 : Nat) := by
    change (k - d : Int) + ((_ : Int).toNat : Int) = _
    rw [hshift]
    omega
  rw [mantissa_shiftToTargetExponent, hshift, hexponent]
  have hfull : 2 ^ 52 ≤ m / 2 ^ (m.log2 - 52) := by
    rw [Nat.le_div_iff_mul_le (Nat.two_pow_pos _), ← Nat.pow_add, Nat.add_sub_cancel' hlog]
    exact Nat.log2_self_le hm0
  refine ⟨⟨hfull, _, rfl, le_of_dropped hn.2 h hfull (by omega)⟩, ?_⟩
  rw [Nat.div_lt_iff_lt_mul (Nat.two_pow_pos _), ← Nat.pow_add,
    show 53 + (m.log2 - 52) = m.log2 + 1 by omega]
  exact Nat.lt_log2_self

theorem AtLeast.round (hn : 0 < n ∧ n < 2 ^ 53) (h : AtLeast d n m e) (sign : Sign)
    (accuracy : Accuracy) :
    ∃ m' e' hpos, roundWithAccuracy .binary64 sign m e accuracy = .finite sign m' e' hpos ∧
      m' < 2 ^ 53 ∧ AtLeast 52 n m' e' := by
  obtain ⟨⟨hfull, k, hk, hle⟩, _⟩ := h.shift hn accuracy
  have hrounded := mantissa_le_roundedMantissa (shiftToTargetExponent .binary64 m e accuracy).1
  have hagain : AtLeast 52 n (shiftToTargetExponent .binary64 m e accuracy).1.roundedMantissa
      (shiftToTargetExponent .binary64 m e accuracy).2 :=
    ⟨Nat.le_trans hfull hrounded, k, hk, Nat.le_trans hle (Nat.mul_le_mul_right _ hrounded)⟩
  obtain ⟨hlast, hlt⟩ := hagain.shift hn .exact
  have hpos := Nat.lt_of_lt_of_le (Nat.two_pow_pos 52) hlast.1
  exact ⟨_, _, hpos, dif_neg (Nat.ne_of_gt hpos), hlt, hlast⟩

theorem AtLeast.mul {d' n' m' : Nat} {e' : Int} (h : AtLeast d n m e)
    (h' : AtLeast d' n' m' e') : AtLeast (d + d') (n * n') (m * m') (e + e') := by
  obtain ⟨hm, k, rfl, hle⟩ := h
  obtain ⟨hm', k', rfl, hle'⟩ := h'
  refine ⟨?_, k + k', by omega, ?_⟩
  · exact Nat.le_trans hm (Nat.le_mul_of_pos_right _ (Nat.lt_of_lt_of_le (by decide) hm'))
  · calc n * n' * 2 ^ (d + d') = n * 2 ^ d * (n' * 2 ^ d') := by
          rw [Nat.pow_add, Nat.mul_mul_mul_comm]
      _ ≤ m * 2 ^ k * (m' * 2 ^ k') := Nat.mul_le_mul hle hle'
      _ = m * m' * 2 ^ (k + k') := by rw [Nat.pow_add, Nat.mul_mul_mul_comm]

/-! ### Bits -/

section Bits

variable (b : BitVec 64)

def biased : Nat := b.toNat / 2 ^ 52 % 2048

/-- The mantissa as it is stored, without the first bit of a full one. -/
def fraction : Nat := b.toNat % 2 ^ 52

def signOf : Sign := if b.toNat / 2 ^ 52 / 2048 = 0 then .positive else .negative

theorem signOf_eq_positive {b : BitVec 64} (h : signOf b = .positive) :
    b.toNat / 2 ^ 52 / 2048 = 0 := by
  unfold signOf at h
  exact Decidable.by_contra fun hne => by
    rw [if_neg hne] at h
    cases h

inductive StandsFor : UnpackedFloat → Prop
  | infinity {sign : Sign} : biased b = 2047 → signOf b = sign → StandsFor (.infinity sign)
  | notANumber : biased b = 2047 → StandsFor .notANumber
  | zero {sign : Sign} : biased b = 0 → signOf b = sign → StandsFor (.zero sign)
  | short {sign : Sign} {m : Nat} {e : Int} {hpos : 0 < m} : biased b = 0 → signOf b = sign →
    m = fraction b → e = -1074 → StandsFor (.finite sign m e hpos)
  | full {sign : Sign} {m : Nat} {e : Int} {hpos : 0 < m} : biased b ≠ 0 → biased b ≠ 2047 →
    signOf b = sign → m = 2 ^ 52 + fraction b → e = biased b - 1075 →
    StandsFor (.finite sign m e hpos)

theorem toNat_unpackExponent : (@unpackExponent .binary64 b).toNat = biased b := by
  change b.toNat >>> 52 % 2 ^ 11 = _
  rw [Nat.shiftRight_eq_div_pow]
  rfl

theorem toNat_unpackMantissa : (@unpackMantissa .binary64 b).toNat = fraction b := by
  change b.toNat >>> 0 % 2 ^ 52 = _
  rw [Nat.shiftRight_zero]
  rfl

theorem ofBitVec_unpackSign : Sign.ofBitVec (@unpackSign .binary64 b) = signOf b := by
  have hsign : (@unpackSign .binary64 b).toNat = b.toNat / 2 ^ 63 % 2 := by
    change b.toNat >>> 63 % 2 ^ 1 = _
    rw [Nat.shiftRight_eq_div_pow]
  have hlt := b.isLt
  rw [signOf, Sign.ofBitVec]
  refine if_congr ?_ rfl rfl
  rw [← BitVec.toNat_inj, hsign]
  change _ = 0 ↔ _
  omega

theorem unpackExponent_eq_iff {stored : Nat} (h : stored < 2048) :
    @unpackExponent .binary64 b = BitVec.ofNat 11 stored ↔ biased b = stored := by
  rw [← BitVec.toNat_inj, toNat_unpackExponent, BitVec.toNat_ofNat]
  change _ = stored % 2048 ↔ _
  rw [Nat.mod_eq_of_lt h]

theorem standsFor_unpack : StandsFor b (UnpackedFloat.unpack .binary64 b) := by
  have hsign := ofBitVec_unpackSign b
  by_cases hgreatest : biased b = 2047
  · have hexponent := (unpackExponent_eq_iff b (by decide)).mpr hgreatest
    by_cases hm : @unpackMantissa .binary64 b = 0#52
    · rw [show UnpackedFloat.unpack .binary64 b = .infinity _ from
        (if_pos hexponent).trans (if_pos hm)]
      exact .infinity hgreatest hsign.symm
    · rw [show UnpackedFloat.unpack .binary64 b = .notANumber from
        (if_pos hexponent).trans (if_neg hm)]
      exact .notANumber hgreatest
  have hother := mt (unpackExponent_eq_iff b (by decide)).mp hgreatest
  by_cases hleast : biased b = 0
  · have hexponent := (unpackExponent_eq_iff b (by decide)).mpr hleast
    by_cases hm : @unpackMantissa .binary64 b = 0#52
    · rw [show UnpackedFloat.unpack .binary64 b = .zero _ from
        (if_neg hother).trans ((if_pos hexponent).trans (dif_pos hm))]
      exact .zero hleast hsign.symm
    · rw [show UnpackedFloat.unpack .binary64 b = .finite _ _ _ _ from
        (if_neg hother).trans ((if_pos hexponent).trans (dif_neg hm))]
      refine .short hleast hsign.symm (toNat_unpackMantissa b) ?_
      rw [hexponent]
      rfl
  · have hexponent := mt (unpackExponent_eq_iff b (by decide)).mp hleast
    rw [show UnpackedFloat.unpack .binary64 b = .finite _ _ _ _ from
      (if_neg hother).trans (if_neg hexponent)]
    refine .full hleast hgreatest hsign.symm ?_ ?_
    · rw [BitVec.toNat_append, ← Nat.shiftLeft_add_eq_or_of_lt (BitVec.isLt _),
        toNat_unpackMantissa]
      rfl
    · rw [toNat_unpackExponent]
      rfl

end Bits

theorem toNat_packComponents (exponent : BitVec 11) (mantissa : BitVec 52) :
    (packComponents .binary64 .positive exponent mantissa).toNat =
      exponent.toNat * 2 ^ 52 + mantissa.toNat := by
  change ((Sign.positive.toBitVec ++ exponent) ++ mantissa).toNat = _
  rw [BitVec.toNat_append, ← Nat.shiftLeft_add_eq_or_of_lt mantissa.isLt, Nat.shiftLeft_eq,
    BitVec.toNat_append, ← Nat.shiftLeft_add_eq_or_of_lt exponent.isLt]
  change (0 <<< 11 + _) * _ + _ = _
  rw [Nat.zero_shiftLeft, Nat.zero_add]

theorem pack_full (hpos : 0 < m) (hm : 2 ^ 52 ≤ m ∧ m < 2 ^ 53) (k : Nat) :
    UnpackedFloat.pack .binary64 (.finite .positive m (k - (52 : Nat)) hpos) =
      if 2 ^ 11 ≤ k + 1023 + 1 then packedInfinity .binary64 .positive
      else packComponents .binary64 .positive (BitVec.ofNat 11 (k + 1023)) (BitVec.ofNat 52 m) := by
  have hlog : m.log2 + 1 = 53 := by
    have hge := (Nat.le_log2 (Nat.ne_of_gt hpos)).mpr hm.1
    have hlt := (Nat.log2_lt (Nat.ne_of_gt hpos)).mpr hm.2
    omega
  have hbiased : ((k - (52 : Nat) : Int) + (1023 : Nat) + (52 : Nat)).toNat = k + 1023 := by omega
  rw [← hbiased]
  exact congrArg (ite _ _) (if_pos hlog)

/-! ### Products -/

/-- The double is at least `n`, which is not 0. -/
def Reaches (n : Nat) (x : Float) : Prop :=
  x.toModel.unpack = .infinity .positive ∨
    ∃ m e hpos, x.toModel.unpack = .finite .positive m e hpos ∧ AtLeast 52 n m e

theorem standsFor (x : Float) : StandsFor x.toModel.toBits.toBitVec x.toModel.unpack :=
  standsFor_unpack _

theorem Reaches.of_infinity : Reaches n (.ofModel (.pack (.infinity .positive))) := .inl rfl

theorem Reaches.of_pack {hpos : 0 < m} (hlt : m < 2 ^ 53) (h : AtLeast 52 n m e) :
    Reaches n (.ofModel (.pack (.finite .positive m e hpos))) := by
  obtain ⟨hm, k, rfl, hle⟩ := h
  have hpack := pack_full hpos ⟨hm, hlt⟩ k
  rw [Reaches]
  change UnpackedFloat.unpack .binary64 (UnpackedFloat.pack .binary64 _) = _ ∨
    ∃ m e hpos, UnpackedFloat.unpack .binary64 (UnpackedFloat.pack .binary64 _) = _ ∧ _
  rw [hpack]
  by_cases hlarge : 2 ^ 11 ≤ k + 1023 + 1
  · rw [if_pos hlarge]
    exact .inl rfl
  · rw [if_neg hlarge]
    have hbits := toNat_packComponents (BitVec.ofNat 11 (k + 1023)) (BitVec.ofNat 52 m)
    rw [BitVec.toNat_ofNat, BitVec.toNat_ofNat] at hbits
    have hstands := standsFor_unpack
      (packComponents .binary64 .positive (BitVec.ofNat 11 (k + 1023)) (BitVec.ofNat 52 m))
    generalize packComponents .binary64 .positive _ _ = b at hbits hstands ⊢
    generalize UnpackedFloat.unpack .binary64 b = u at hstands ⊢
    have hsign : signOf b = .positive := if_pos (by omega)
    have hbiased : biased b = k + 1023 := by unfold biased; omega
    have hfraction : 2 ^ 52 + fraction b = m := by unfold fraction; omega
    cases hstands with
    | infinity h => omega
    | notANumber h => omega
    | zero h => omega
    | short h => omega
    | full _ _ hs hm' he' =>
      rw [hsign] at hs
      rw [hbiased] at he'
      rw [hfraction] at hm'
      cases hs
      refine .inr ⟨_, _, _, rfl, ?_⟩
      rw [hm', he']
      exact ⟨hm, k, by omega, hle⟩

theorem one_unpack :
    (1 : Float).toModel.unpack = .finite .positive (2 ^ 52) (-52) (Nat.two_pow_pos 52) := rfl

theorem Reaches.of_one_le {x : Float} (h : 1 ≤ x) : Reaches 1 x := by
  obtain ⟨o, ho, hle⟩ := (le_iff 1 x).mp h
  rw [one_unpack] at ho
  have hstands := standsFor x
  rw [Reaches]
  generalize x.toModel.unpack = u at ho hstands ⊢
  rcases u with (_ | _) | _ | (_ | _) | ⟨(_ | _), m, e, hpos⟩
  case infinity.positive => exact .inl rfl
  case finite.positive =>
    have hexponent : -52 ≤ e := Int.not_lt.mp fun hlt => by
      injection ho with ho
      rw [Int.compare_eq_gt.mpr hlt] at ho
      subst ho
      cases hle
    cases hstands with
    | short _ _ _ he => omega
    | full _ _ _ hm _ =>
      have hfull : 2 ^ 52 ≤ m := by omega
      refine .inr ⟨m, e, hpos, rfl, hfull, (e + 52).toNat, by omega, ?_⟩
      rw [Nat.one_mul]
      exact Nat.le_trans hfull (Nat.le_mul_of_pos_right _ (Nat.two_pow_pos _))
  all_goals cases ho <;> cases hle

theorem Reaches.mul {x y : Float} (hn : 0 < n ∧ n < 2 ^ 53) (hx : Reaches n x)
    (hy : Reaches 1 y) : Reaches n (x * y) := by
  rw [show x * y = .ofModel (.pack (.mul .binary64 x.toModel.unpack y.toModel.unpack)) from rfl]
  rcases hx with hx | ⟨m, e, hpos, hx, hm⟩ <;> rcases hy with hy | ⟨m', e', hpos', hy, hm'⟩ <;>
    rw [hx, hy]
  · exact .of_infinity
  · exact .of_infinity
  · exact .of_infinity
  · have hmul : UnpackedFloat.mul .binary64 (.finite .positive m e hpos)
        (.finite .positive m' e' hpos') =
          roundWithAccuracy .binary64 .positive (m * m') (e + e') .exact := rfl
    have hproduct := hm.mul hm'
    rw [Nat.mul_one] at hproduct
    obtain ⟨_, _, _, hround, hlt, hle⟩ := hproduct.round hn .positive .exact
    rw [hmul, hround]
    exact .of_pack hlt hle

theorem ofNat_eq_round (hn : 0 < n) :
    UnpackedFloat.ofNat .binary64 n = UnpackedFloat.round .binary64 .positive n 0 := by
  obtain ⟨n, rfl⟩ := Nat.exists_eq_succ_of_ne_zero (Nat.ne_of_gt hn)
  rfl

theorem Reaches.toFloat (hn : 0 < n ∧ n < 2 ^ 53) : Reaches n n.toUInt64.toFloat := by
  have hvalue : n.toUInt64.toNat = n := UInt64.toNat_ofNat_of_lt' (Nat.lt_trans hn.2 (by decide))
  have hlog : n.log2 < 53 := (Nat.log2_lt (Nat.ne_of_gt hn.1)).mpr hn.2
  have hshift : (0 - Format.binary64.targetExponent (totalExponent n 0)).toNat = 52 - n.log2 := by
    rw [targetExponent_eq, totalExponent]
    omega
  have hround : UnpackedFloat.round .binary64 .positive n 0 =
      roundWithAccuracy .binary64 .positive (n <<< (52 - n.log2)) (0 - (52 - n.log2 : Nat))
        .exact := by
    rw [← hshift]
    rfl
  have hexact : AtLeast 52 n (n <<< (52 - n.log2)) (0 - (52 - n.log2 : Nat)) := by
    rw [Nat.shiftLeft_eq]
    refine ⟨?_, n.log2, by omega, ?_⟩
    · calc 2 ^ 52 = 2 ^ n.log2 * 2 ^ (52 - n.log2) := by
            rw [← Nat.pow_add, Nat.add_sub_cancel' (Nat.le_of_lt_succ hlog)]
        _ ≤ n * 2 ^ (52 - n.log2) :=
          Nat.mul_le_mul_right _ (Nat.log2_self_le (Nat.ne_of_gt hn.1))
    · rw [Nat.mul_assoc, ← Nat.pow_add, Nat.sub_add_cancel (Nat.le_of_lt_succ hlog)]
  obtain ⟨_, _, _, h, hlt, hle⟩ := hexact.round hn .positive .exact
  rw [show n.toUInt64.toFloat =
      .ofModel (.pack (UnpackedFloat.ofNat .binary64 n.toUInt64.toNat)) from rfl,
    hvalue, ofNat_eq_round hn.1, hround, h]
  exact .of_pack hlt hle

theorem Reaches.ofNat (hn : 0 < n ∧ n < 2 ^ 53) : Reaches n (Float.ofNat n) := by
  rw [show Float.ofNat n = n.toUInt64.toFloat * 1 from dif_pos ⟨hn.2, by decide⟩]
  exact (Reaches.toFloat hn).mul hn (.of_one_le (by decide +kernel))

end Double
end TaskGen
