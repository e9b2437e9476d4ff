import NetImport.Tensor.DType

/-!
# The range of the 32-bit numbers

The significand of a finite 32-bit number has at most 24 bits and its exponent is at most 104,
and the greatest number has the greatest of both.  So only an infinity lies beyond the greatest
number or its negation; what is no number lies nowhere.
-/

namespace NetImport
namespace Binary

open Float.Model (UnpackedFloat)
open Float.Model.Format (binary32)

theorem unpack_finite_bounds {bits : BitVec binary32.numBits} {sign : UnpackedFloat.Sign}
    {significand : Nat} {exponent : Int} {hpos : 0 < significand}
    (hunpack : UnpackedFloat.unpack binary32 bits = .finite sign significand exponent hpos) :
    significand ≤ 16777215 ∧ exponent ≤ 104 := by
  have hfraction : (UnpackedFloat.unpackMantissa bits).toNat < 2 ^ 23 :=
    (UnpackedFloat.unpackMantissa bits).isLt
  have hfield : (UnpackedFloat.unpackExponent bits).toNat < 2 ^ 8 :=
    (UnpackedFloat.unpackExponent bits).isLt
  have hbias : binary32.exponentBias = 127 := rfl
  have hwidth : binary32.mantissaBitsWithoutImplicit = 23 := rfl
  unfold UnpackedFloat.unpack at hunpack
  by_cases hlast : UnpackedFloat.unpackExponent bits = -1#8
  · rw [if_pos hlast] at hunpack
    by_cases hzero : UnpackedFloat.unpackMantissa bits = 0#23
    · rw [if_pos hzero] at hunpack
      cases hunpack
    · rw [if_neg hzero] at hunpack
      cases hunpack
  · rw [if_neg hlast] at hunpack
    have hbelow : (UnpackedFloat.unpackExponent bits).toNat ≠ 255 := fun hvalue =>
      hlast (BitVec.eq_of_toNat_eq hvalue)
    by_cases hsubnormal : UnpackedFloat.unpackExponent bits = 0#8
    · rw [if_pos hsubnormal] at hunpack
      have hleast : (UnpackedFloat.unpackExponent bits).toNat = 0 :=
        congrArg BitVec.toNat hsubnormal
      by_cases hzero : UnpackedFloat.unpackMantissa bits = 0#23
      · rw [dif_pos hzero] at hunpack
        cases hunpack
      · rw [dif_neg hzero] at hunpack
        obtain ⟨-, rfl, rfl⟩ := UnpackedFloat.finite.inj hunpack
        omega
    · rw [if_neg hsubnormal] at hunpack
      obtain ⟨-, rfl, rfl⟩ := UnpackedFloat.finite.inj hunpack
      rw [BitVec.toNat_append, ← Nat.shiftLeft_add_eq_or_of_lt hfraction]
      change 1 <<< 23 + _ ≤ _ ∧ _
      omega

theorem unpack_greatest :
    (narrow DType.greatestSingle).toModel.unpack = .finite .positive 16777215 104 (by decide) := by
  have hbits : narrow DType.greatestSingle = Float32.ofBits 0x7F7FFFFF := by decide +kernel
  rw [hbits]
  rfl

theorem unpack_least :
    (narrow (-DType.greatestSingle)).toModel.unpack =
      .finite .negative 16777215 104 (by decide) := by
  have hbits : narrow (-DType.greatestSingle) = Float32.ofBits 0xFF7FFFFF := by decide +kernel
  rw [hbits]
  rfl

theorem single_lt_iff {x y : Float32} :
    x < y ↔ x.toModel.unpack.compare y.toModel.unpack = some .lt := by
  have hless : x < y ↔ (x.toModel.unpack.compare y.toModel.unpack == some .lt) = true :=
    @decide_eq_true_iff (x.toModel.lt y.toModel = true) _
  exact hless.trans beq_iff_eq

/-- Only one infinity is greater than the greatest finite number. -/
theorem greatest_lt_iff {x : Float32} :
    narrow DType.greatestSingle < x ↔ x.toModel.unpack = .infinity .positive := by
  rw [single_lt_iff, unpack_greatest]
  constructor
  · intro hcompare
    cases hx : x.toModel.unpack <;> rw [hx] at hcompare
    case infinity sign =>
      cases sign with
      | positive => rfl
      | negative => cases hcompare
    case notANumber => cases hcompare
    case zero => cases hcompare
    case finite sign significand exponent hpos =>
      cases sign with
      | negative => cases hcompare
      | positive =>
          have hbounds := unpack_finite_bounds hx
          have horder := Option.some.inj hcompare
          rw [Ordering.then_eq_lt, Int.compare_eq_lt, Int.compare_eq_eq, Nat.compare_eq_lt]
            at horder
          omega
  · intro hinfinite
    rw [hinfinite]
    rfl

theorem lt_least_iff {x : Float32} :
    x < narrow (-DType.greatestSingle) ↔ x.toModel.unpack = .infinity .negative := by
  rw [single_lt_iff, unpack_least]
  constructor
  · intro hcompare
    cases hx : x.toModel.unpack <;> rw [hx] at hcompare
    case infinity sign =>
      cases sign with
      | positive => cases hcompare
      | negative => rfl
    case notANumber => cases hcompare
    case zero => cases hcompare
    case finite sign significand exponent hpos =>
      cases sign with
      | positive => cases hcompare
      | negative =>
          have hbounds := unpack_finite_bounds hx
          have horder := Option.some.inj hcompare
          rw [Ordering.swap_eq_lt, Ordering.then_eq_gt, Int.compare_eq_gt, Int.compare_eq_eq,
            Nat.compare_eq_gt] at horder
          omega
  · intro hinfinite
    rw [hinfinite]
    rfl

/-- A number is an infinity when it lies beyond a finite one on either side. -/
theorem isInf_iff_beyond {x : Float32} :
    x.isInf = true ↔
      x < narrow (-DType.greatestSingle) ∨ narrow DType.greatestSingle < x := by
  have hinf : x.isInf = x.toModel.unpack.isInf := rfl
  rw [lt_least_iff, greatest_lt_iff, hinf]
  constructor
  · intro hinfinite
    cases hx : x.toModel.unpack <;> rw [hx] at hinfinite
    case infinity sign =>
      cases sign with
      | positive => exact .inr rfl
      | negative => exact .inl rfl
    all_goals cases hinfinite
  · rintro (hx | hx) <;> rw [hx] <;> rfl

end Binary
end NetImport
