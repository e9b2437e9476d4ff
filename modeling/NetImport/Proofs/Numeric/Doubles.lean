import NetImport.Proofs.Numeric.Rounding

/-!
# The bits of whole numbers

A whole number other than zero is a normal 64-bit number: its bits are a sign, an exponent and
the fraction that follows the leading one.  The bits are read back as the nearest multiple, and
a greater whole number never becomes a smaller 64-bit number.
-/

namespace NetImport
namespace Binary

/-! ## Significand and exponent of a whole number -/

/-- The significand of a whole number; the carry past 53 bits stays in it. -/
def significand (n : Nat) : Nat := roundHalfEven (n * twoPow (52 - n.log2)) (spacing n)

/-- The magnitude field of a whole number other than zero. -/
def magnitudeField (n : Nat) : Nat := (n.log2 + 1022) * 2 ^ 52 + significand n

variable {n n' : Nat}

theorem spacing_eq_one (hlog : n.log2 ≤ 52) : spacing n = 1 := by
  rw [spacing, Nat.sub_eq_zero_of_le hlog]
  rfl

theorem significand_of_log2_le (hlog : n.log2 ≤ 52) :
    significand n = n * twoPow (52 - n.log2) := by
  rw [significand, spacing_eq_one hlog, roundHalfEven_one]

theorem significand_of_le_log2 (hlog : 52 ≤ n.log2) :
    significand n = roundHalfEven n (spacing n) := by
  rw [significand, Nat.sub_eq_zero_of_le hlog]
  exact congrArg (roundHalfEven · _) (Nat.mul_one n)

/-- The number that is rounded to the significand has 53 bits before its point. -/
theorem scaled_bounds (hn : n ≠ 0) :
    2 ^ 52 * spacing n ≤ n * twoPow (52 - n.log2) ∧
      n * twoPow (52 - n.log2) < 2 ^ 53 * spacing n := by
  have hlow : twoPow n.log2 ≤ n := Nat.log2_self_le hn
  have hhigh : n < twoPow (n.log2 + 1) := Nat.lt_log2_self
  have hfirst : 2 ^ 52 * spacing n = twoPow n.log2 * twoPow (52 - n.log2) := by
    simp only [spacing, twoPow, Nat.pow_eq, ← Nat.pow_add]
    congr 1
    omega
  have hsecond : 2 ^ 53 * spacing n = twoPow (n.log2 + 1) * twoPow (52 - n.log2) := by
    simp only [spacing, twoPow, Nat.pow_eq, ← Nat.pow_add]
    congr 1
    omega
  rw [hfirst, hsecond]
  exact ⟨Nat.mul_le_mul_right _ hlow, Nat.mul_lt_mul_of_pos_right hhigh (twoPow_pos _)⟩

theorem significand_bounds (hn : n ≠ 0) :
    2 ^ 52 ≤ significand n ∧ significand n ≤ 2 ^ 53 := by
  obtain ⟨hlow, hhigh⟩ := scaled_bounds hn
  have hleast := (Nat.le_div_iff_mul_le (spacing_pos n)).mpr hlow
  have hgreatest := (Nat.div_lt_iff_lt_mul (spacing_pos n)).mpr hhigh
  constructor
  · exact Nat.le_trans hleast (div_le_roundHalfEven ..)
  · exact Nat.le_trans (roundHalfEven_le_succ ..) hgreatest

/-- Only a rounded significand carries past 53 bits. -/
theorem significand_lt (hn : n ≠ 0) (hlog : n.log2 ≤ 52) : significand n < 2 ^ 53 := by
  have hhigh := (scaled_bounds hn).2
  rwa [spacing_eq_one hlog, Nat.mul_one, ← significand_of_log2_le hlog] at hhigh

theorem significand_div (n : Nat) :
    significand n * spacing n / twoPow (52 - n.log2) = nearestMultiple n := by
  rcases Nat.le_total n.log2 52 with hlog | hlog
  · rw [nearestMultiple, significand_of_log2_le hlog, spacing_eq_one hlog, roundHalfEven_one,
      Nat.mul_one, Nat.mul_one, Nat.mul_div_cancel _ (twoPow_pos _)]
  · rw [nearestMultiple, significand_of_le_log2 hlog, Nat.sub_eq_zero_of_le hlog]
    exact Nat.div_one _

/-- The magnitude fields are in the order of the numbers. -/
theorem magnitudeField_mono (hn : n ≠ 0) (hle : n ≤ n') :
    magnitudeField n ≤ magnitudeField n' := by
  have hbounds := significand_bounds hn
  have hbounds' := @significand_bounds n' (by omega)
  unfold magnitudeField
  rcases Nat.lt_or_eq_of_le (log2_mono hn hle) with hless | hsame
  · omega
  · have hround : significand n ≤ significand n' := by
      simp only [significand, spacing, hsame]
      exact roundHalfEven_mono (Nat.mul_le_mul_right _ hle)
    omega

theorem ratioLog2_one (hn : n ≠ 0) : ratioLog2 n 1 = n.log2 := by
  have hestimate : (n.log2 : Int) - (Nat.log2 1 : Int) = n.log2 := by
    rw [show Nat.log2 1 = 0 from rfl]
    exact Int.sub_zero _
  have hscaled : (scaleRatio n 1 n.log2).2 ≤ (scaleRatio n 1 n.log2).1 := by
    have hlow : twoPow n.log2 ≤ n := Nat.log2_self_le hn
    simpa [scaleRatio, twoPow] using hlow
  rw [ratioLog2, hestimate, if_pos hscaled]

theorem roundMagnitude_nat (hn : n ≠ 0) (hsmall : n < 2 ^ 64) :
    double.roundMagnitude n 1 = magnitudeField n := by
  have hlog : n.log2 < 64 := (Nat.log2_lt hn).mpr hsmall
  have hbounds := significand_bounds hn
  have hexponent : max ((n.log2 : Int) - 52) (-1074) = n.log2 - 52 := by omega
  have hscaled : scaleRatio n 1 (n.log2 - 52) = (n * twoPow (52 - n.log2), spacing n) := by
    rw [scaleRatio, spacing, Nat.one_mul]
    congr 3 <;> omega
  have hbinades : ((n.log2 : Int) - 52 - (-1074)).toNat = n.log2 + 1022 := by omega
  have hleast : double.leastExponent = -1074 := by decide
  have hfield : magnitudeField n ≤ double.infinityBits := by
    have hinfinity : double.infinityBits = 2047 * 2 ^ 52 := by decide
    rw [hinfinity, magnitudeField]
    omega
  rw [Format.roundMagnitude, if_neg hn, ratioLog2_one hn, hleast]
  change min ((max ((n.log2 : Int) - 52) (-1074) - (-1074)).toNat * 2 ^ 52 +
    roundHalfEven (scaleRatio n 1 (max ((n.log2 : Int) - 52) (-1074))).1
      (scaleRatio n 1 (max ((n.log2 : Int) - 52) (-1074))).2) _ = _
  rw [hexponent, hbinades, hscaled]
  exact Nat.min_eq_left hfield

/-! ## Normal numbers -/

open Float.Model (UnpackedFloat)
open Float.Model.Format (binary64)

/-- The fields of a normal 64-bit number. -/
structure Normal where
  negative : Bool
  exponent : Nat
  fraction : Nat
  exponent_pos : 0 < exponent
  exponent_lt : exponent < 2047
  fraction_lt : fraction < 2 ^ 52

namespace Normal

variable (x : Normal)

def bits : Nat := double.signBits x.negative + (x.exponent * 2 ^ 52 + x.fraction)

def number : Float := Float.ofBits x.bits.toUInt64

def sign : UnpackedFloat.Sign := if x.negative then .negative else .positive

def pattern : BitVec binary64.numBits :=
  UnpackedFloat.packComponents binary64 x.sign (.ofNat 11 x.exponent) (.ofNat 52 x.fraction)

def unpacked : UnpackedFloat :=
  .finite x.sign (2 ^ 52 + x.fraction) ((x.exponent : Int) - 1075) (by omega)

theorem bits_lt : x.bits < 2 ^ 64 := by
  have hexponent := x.exponent_lt
  have hfraction := x.fraction_lt
  have hsign : double.signBits x.negative ≤ 2 ^ 63 := by
    cases x.negative <;> decide
  rw [bits]
  omega

theorem toBitVec_bits : BitVec.ofNat 64 x.bits = x.pattern := by
  have hexponent := x.exponent_lt
  have hfraction := x.fraction_lt
  have hsign : double.signBits x.negative = x.sign.toBitVec.toNat * 2 ^ 63 := by
    rw [sign]
    cases x.negative <;> decide
  apply BitVec.eq_of_toNat_eq
  rw [BitVec.toNat_ofNat, Nat.mod_eq_of_lt x.bits_lt, pattern, UnpackedFloat.packComponents,
    BitVec.toNat_append, BitVec.toNat_append, BitVec.toNat_ofNat, BitVec.toNat_ofNat,
    Nat.mod_eq_of_lt (Nat.lt_trans hexponent (by decide)), Nat.mod_eq_of_lt hfraction,
    ← Nat.shiftLeft_add_eq_or_of_lt (Nat.lt_trans hexponent (by decide)),
    ← Nat.shiftLeft_add_eq_or_of_lt hfraction, Nat.shiftLeft_eq, Nat.shiftLeft_eq, bits, hsign]
  omega

theorem unpackSign_pattern :
    UnpackedFloat.Sign.ofBitVec (UnpackedFloat.unpackSign x.pattern) = x.sign := by
  rw [pattern, UnpackedFloat.unpackSign, UnpackedFloat.packComponents, BitVec.extractLsb,
    BitVec.extractLsb'_append_eq_of_le (by decide), BitVec.extractLsb'_append_eq_of_le (by decide)]
  cases x.sign <;> rfl

theorem toNat_exponent : (BitVec.ofNat 11 x.exponent).toNat = x.exponent := by
  rw [BitVec.toNat_ofNat, Nat.mod_eq_of_lt (Nat.lt_trans x.exponent_lt (by decide))]

theorem exponent_ne {other : BitVec 11} (hne : x.exponent ≠ other.toNat) :
    BitVec.ofNat 11 x.exponent ≠ other := by
  intro heq
  rw [← heq, x.toNat_exponent] at hne
  exact hne rfl

theorem toNat_significand : (1#1 ++ BitVec.ofNat 52 x.fraction).toNat = 2 ^ 52 + x.fraction := by
  have hfraction : (BitVec.ofNat 52 x.fraction).toNat = x.fraction := by
    rw [BitVec.toNat_ofNat, Nat.mod_eq_of_lt x.fraction_lt]
  rw [BitVec.toNat_append, hfraction, ← Nat.shiftLeft_add_eq_or_of_lt x.fraction_lt]
  rfl

theorem unpack_pattern : UnpackedFloat.unpack binary64 x.pattern = x.unpacked := by
  have hfinite : BitVec.ofNat 11 x.exponent ≠ -1#11 := x.exponent_ne (Nat.ne_of_lt x.exponent_lt)
  have hnormal : BitVec.ofNat 11 x.exponent ≠ 0#11 := x.exponent_ne (Nat.ne_of_gt x.exponent_pos)
  have hexponent : UnpackedFloat.unpackExponent x.pattern = .ofNat 11 x.exponent :=
    UnpackedFloat.unpackExponent_packComponents
  have hmantissa : UnpackedFloat.unpackMantissa x.pattern = .ofNat 52 x.fraction :=
    UnpackedFloat.unpackMantissa_packComponents
  rw [UnpackedFloat.unpack]
  simp only [hexponent, hmantissa, hfinite, hnormal, if_false, x.unpackSign_pattern,
    x.toNat_exponent, x.toNat_significand]
  rfl

theorem log2_significand : (2 ^ 52 + x.fraction).log2 = 52 := by
  have hfraction := x.fraction_lt
  rw [Nat.log2_eq_iff (by omega)]
  omega

theorem pack_unpacked : UnpackedFloat.pack binary64 x.unpacked = x.pattern := by
  have hlt := x.exponent_lt
  have hbiased : ((x.exponent : Int) - 1075 + (1023 : Nat) + (52 : Nat)).toNat = x.exponent := by
    omega
  have hfraction : BitVec.ofNat 52 (2 ^ 52 + x.fraction) = .ofNat 52 x.fraction := by
    apply BitVec.eq_of_toNat_eq
    rw [BitVec.toNat_ofNat, BitVec.toNat_ofNat, Nat.add_mod_left]
  rw [unpacked, UnpackedFloat.pack]
  change (if 2 ^ 11 ≤ ((x.exponent : Int) - 1075 + (1023 : Nat) + (52 : Nat)).toNat + 1 then _
    else if (2 ^ 52 + x.fraction).log2 + 1 = 53 then
      UnpackedFloat.packComponents binary64 x.sign
        (.ofNat 11 ((x.exponent : Int) - 1075 + (1023 : Nat) + (52 : Nat)).toNat)
        (.ofNat 52 (2 ^ 52 + x.fraction))
    else _) = _
  rw [hbiased, hfraction, log2_significand, if_neg (by omega), if_pos rfl, pattern]

/-- The bits of the number are its bits, since it is not missing. -/
theorem toBits_number : x.number.toBits.toNat = x.bits := by
  have hbits : x.number.toBits.toBitVec = x.pattern := by
    change UnpackedFloat.pack binary64 (UnpackedFloat.unpack binary64 (.ofNat 64 x.bits)) = _
    rw [x.toBitVec_bits, x.unpack_pattern, x.pack_unpacked]
  rw [UInt64.toNat, hbits, ← x.toBitVec_bits, BitVec.toNat_ofNat, Nat.mod_eq_of_lt x.bits_lt]

theorem unpack_number : x.number.toModel.unpack = x.unpacked := by
  change UnpackedFloat.unpack binary64 (UnpackedFloat.pack binary64
    (UnpackedFloat.unpack binary64 (.ofNat 64 x.bits))) = _
  rw [x.toBitVec_bits, x.unpack_pattern, x.pack_unpacked, x.unpack_pattern]

theorem decode_bits :
    double.decode x.bits =
      .finite x.negative (2 ^ 52 + x.fraction) ((x.exponent : Int) - 1075) := by
  have hpos := x.exponent_pos
  have hlt := x.exponent_lt
  have hfraction := x.fraction_lt
  have hmagnitude : x.bits % 2 ^ 63 = x.exponent * 2 ^ 52 + x.fraction := by
    have hsign : double.signBits x.negative % 2 ^ 63 = 0 := by cases x.negative <;> decide
    rw [bits]
    omega
  have hnegative : (x.bits / 2 ^ 63 % 2 == 1) = x.negative := by
    rw [bits]
    cases x.negative with
    | false =>
        have hsign : double.signBits false = 0 := by decide
        rw [hsign]
        simp only [beq_eq_false_iff_ne]
        omega
    | true =>
        have hsign : double.signBits true = 2 ^ 63 := by decide
        rw [hsign]
        simp only [beq_iff_eq]
        omega
  have hweight : double.signWeight = 2 ^ 63 := by decide
  have hwidth : twoPow double.fractionBits = 2 ^ 52 := rfl
  have hinfinity : double.infinityBits = 2047 * 2 ^ 52 := by decide
  have hleast : double.leastExponent = -1074 := by decide
  have hfield : (x.exponent * 2 ^ 52 + x.fraction) / 2 ^ 52 = x.exponent := by omega
  have hrest : (x.exponent * 2 ^ 52 + x.fraction) % 2 ^ 52 = x.fraction := by omega
  rw [Format.decode, hweight, hwidth, hinfinity, hleast, hmagnitude, hnegative, hfield, hrest]
  rw [if_neg (by omega), if_neg (by omega), if_neg (by omega)]
  congr 1
  omega

theorem ofDouble_number :
    ofDouble x.number =
      .finite x.negative (2 ^ 52 + x.fraction) ((x.exponent : Int) - 1075) := by
  rw [ofDouble, x.toBits_number, x.decode_bits]

def magnitude : Nat := x.exponent * 2 ^ 52 + x.fraction

theorem magnitude_pos : 0 < x.magnitude := by
  have hexponent := x.exponent_pos
  unfold magnitude
  omega

/-- The place of a number in the order of all numbers. -/
def place : Int := if x.negative then -(x.magnitude : Int) else x.magnitude

variable {x} {y : Normal} {zeroSign : UnpackedFloat.Sign}

theorem place_lt_of_compare (hcompare : x.unpacked.compare y.unpacked = some .lt) :
    x.place < y.place := by
  have hx := x.fraction_lt
  have hy := y.fraction_lt
  have hpos := x.magnitude_pos
  have hpos' := y.magnitude_pos
  rw [unpacked, unpacked, sign, sign] at hcompare
  unfold place
  cases hsign : x.negative <;> cases hsign' : y.negative <;> rw [hsign, hsign'] at hcompare
  case false.false =>
    have horder := Option.some.inj hcompare
    rw [Ordering.then_eq_lt, Int.compare_eq_lt, Int.compare_eq_eq, Nat.compare_eq_lt] at horder
    simp only [Bool.false_eq_true, if_false, magnitude]
    omega
  case false.true => cases hcompare
  case true.false =>
    simp only [Bool.false_eq_true, if_false, if_true]
    omega
  case true.true =>
    have horder := Option.some.inj hcompare
    rw [Ordering.swap_eq_lt, Ordering.then_eq_gt, Int.compare_eq_gt, Int.compare_eq_eq,
      Nat.compare_eq_gt] at horder
    simp only [if_true, magnitude]
    omega

theorem place_pos_of_compare
    (hcompare : (UnpackedFloat.zero zeroSign).compare x.unpacked = some .lt) : 0 < x.place := by
  have hpos := x.magnitude_pos
  rw [unpacked, sign] at hcompare
  unfold place
  cases hsign : x.negative <;> rw [hsign] at hcompare
  case false => exact Int.natCast_pos.mpr hpos
  case true => cases hcompare

theorem place_neg_of_compare
    (hcompare : x.unpacked.compare (UnpackedFloat.zero zeroSign) = some .lt) : x.place < 0 := by
  have hpos := x.magnitude_pos
  rw [unpacked, sign] at hcompare
  unfold place
  cases hsign : x.negative <;> rw [hsign] at hcompare
  case false => cases hcompare
  case true =>
    simp only [if_true]
    omega

end Normal

/-! ## Whole numbers as normal numbers -/

variable {i : Int}

theorem magnitudeField_bounds (hn : n ≠ 0) (hsmall : n < 2 ^ 64) :
    2 ^ 52 ≤ magnitudeField n ∧ magnitudeField n < 2047 * 2 ^ 52 := by
  have hlog : n.log2 < 64 := (Nat.log2_lt hn).mpr hsmall
  have hbounds := significand_bounds hn
  unfold magnitudeField
  omega

/-- The fields of a whole number. -/
def Normal.ofInt (i : Int) (hi : i ≠ 0) (hsmall : i.natAbs < 2 ^ 64) : Normal where
  negative := decide (i < 0)
  exponent := magnitudeField i.natAbs / 2 ^ 52
  fraction := magnitudeField i.natAbs % 2 ^ 52
  exponent_pos := by
    have hbounds := magnitudeField_bounds (Int.natAbs_ne_zero.mpr hi) hsmall
    omega
  exponent_lt := by
    have hbounds := magnitudeField_bounds (Int.natAbs_ne_zero.mpr hi) hsmall
    omega
  fraction_lt := Nat.mod_lt _ (by decide)

theorem Normal.magnitude_ofInt (hi : i ≠ 0) (hsmall : i.natAbs < 2 ^ 64) :
    (Normal.ofInt i hi hsmall).magnitude = magnitudeField i.natAbs :=
  Nat.div_add_mod' _ _

theorem doubleOfInt_eq (hi : i ≠ 0) (hsmall : i.natAbs < 2 ^ 64) :
    doubleOfInt i = (Normal.ofInt i hi hsmall).number := by
  have hencode : double.encode (ofInt i) =
      double.signBits (decide (i < 0)) + magnitudeField i.natAbs := by
    rw [← roundMagnitude_nat (Int.natAbs_ne_zero.mpr hi) hsmall]
    exact congrArg (fun num => _ + double.roundMagnitude num 1) (Nat.mul_one i.natAbs)
  have hbits : (Normal.ofInt i hi hsmall).bits = double.encode (ofInt i) :=
    hencode ▸ congrArg (_ + ·) (Normal.magnitude_ofInt hi hsmall)
  rw [doubleOfInt, toDouble, ← hbits, Normal.number]

theorem doubleOfInt_zero : doubleOfInt 0 = Float.ofBits 0 := by decide +kernel

/-- The magnitude that the fields of a whole number stand for. -/
theorem truncate_fields (hn : n ≠ 0) :
    (2 ^ 52 + magnitudeField n % 2 ^ 52) *
        twoPow (((magnitudeField n / 2 ^ 52 : Nat) : Int) - 1075).toNat /
        twoPow (-(((magnitudeField n / 2 ^ 52 : Nat) : Int) - 1075)).toNat =
      nearestMultiple n := by
  have hbounds := significand_bounds hn
  rw [← significand_div]
  rcases Nat.lt_or_eq_of_le hbounds.2 with hless | hcarry
  · have hexponent : magnitudeField n / 2 ^ 52 = n.log2 + 1023 := by
      unfold magnitudeField
      omega
    have hfraction : 2 ^ 52 + magnitudeField n % 2 ^ 52 = significand n := by
      unfold magnitudeField
      omega
    have hright : (((n.log2 + 1023 : Nat) : Int) - 1075).toNat = n.log2 - 52 := by omega
    have hleft : (-(((n.log2 + 1023 : Nat) : Int) - 1075)).toNat = 52 - n.log2 := by omega
    rw [hexponent, hfraction, hright, hleft, spacing]
  · -- A carry moves the leading one, and only a rounded significand has one.
    have hlog : 52 < n.log2 :=
      Nat.lt_of_not_le fun hsmall => Nat.ne_of_lt (significand_lt hn hsmall) hcarry
    have hexponent : magnitudeField n / 2 ^ 52 = n.log2 + 1024 := by
      unfold magnitudeField
      omega
    have hfraction : 2 ^ 52 + magnitudeField n % 2 ^ 52 = 2 ^ 52 := by
      unfold magnitudeField
      omega
    have hright : (((n.log2 + 1024 : Nat) : Int) - 1075).toNat = (n.log2 - 52) + 1 := by omega
    have hleft : (-(((n.log2 + 1024 : Nat) : Int) - 1075)).toNat = 52 - n.log2 := by omega
    have hvalue : 2 ^ 52 * twoPow (n.log2 - 52 + 1) = 2 ^ 53 * spacing n := by
      rw [twoPow_succ, spacing]
      omega
    rw [hexponent, hfraction, hright, hleft, hcarry, hvalue]

/-- A whole number that becomes a 64-bit number and then an element of an integer type. -/
theorem saturate_doubleOfInt (hsmall : i.natAbs < 2 ^ 64) (range : IntRange) :
    (ofDouble (doubleOfInt i)).saturate range = range.clamp (nearestDouble i) := by
  by_cases hi : i = 0
  · subst hi
    have hzero : ofDouble (doubleOfInt 0) = .finite false 0 (-1074) := by decide +kernel
    have hvalue : Datum.truncate false 0 (-1074) = 0 := by
      rw [Datum.truncate, Nat.zero_mul, Nat.zero_div]
      rfl
    rw [hzero, Datum.saturate, hvalue]
    rfl
  · have hvalue := truncate_fields (Int.natAbs_ne_zero.mpr hi)
    rw [doubleOfInt_eq hi hsmall, Normal.ofDouble_number, Datum.saturate, Datum.truncate]
    simp only [Normal.ofInt, hvalue, decide_eq_true_eq]
    rfl

/-- The place of a whole number in the order of the 64-bit numbers. -/
def place (i : Int) : Int :=
  if i = 0 then 0 else if i < 0 then -(magnitudeField i.natAbs : Int) else magnitudeField i.natAbs

theorem place_of_pos (hi : 0 < i) : place i = magnitudeField i.natAbs := by
  rw [place, if_neg (by omega), if_neg (by omega)]

theorem place_of_neg (hi : i < 0) : place i = -(magnitudeField i.natAbs : Int) := by
  rw [place, if_neg (by omega), if_pos hi]

theorem place_mono {low high : Int} (hle : low ≤ high) : place low ≤ place high := by
  by_cases hpositive : 0 < low
  · have hfields : magnitudeField low.natAbs ≤ magnitudeField high.natAbs :=
      magnitudeField_mono (by omega) (by omega)
    rw [place_of_pos hpositive, place_of_pos (by omega)]
    omega
  by_cases hnegative : high < 0
  · have hfields : magnitudeField high.natAbs ≤ magnitudeField low.natAbs :=
      magnitudeField_mono (by omega) (by omega)
    rw [place_of_neg hnegative, place_of_neg (by omega)]
    omega
  · have hlow : place low ≤ 0 := by
      unfold place
      split <;> omega
    have hhigh : 0 ≤ place high := by
      unfold place
      split <;> omega
    exact Int.le_trans hlow hhigh

theorem place_ofInt (hi : i ≠ 0) (hsmall : i.natAbs < 2 ^ 64) :
    (Normal.ofInt i hi hsmall).place = place i := by
  rw [Normal.place, Normal.magnitude_ofInt, place, if_neg hi]
  simp [Normal.ofInt]

theorem unpack_doubleOfInt_zero : (doubleOfInt 0).toModel.unpack = .zero .positive := by
  rw [doubleOfInt_zero]
  rfl

theorem unpack_doubleOfInt (hi : i ≠ 0) (hsmall : i.natAbs < 2 ^ 64) :
    (doubleOfInt i).toModel.unpack = (Normal.ofInt i hi hsmall).unpacked := by
  rw [doubleOfInt_eq hi hsmall, Normal.unpack_number]

theorem place_lt_of_doubleOfInt_lt {j : Int} (hsmall : i.natAbs < 2 ^ 64)
    (hsmall' : j.natAbs < 2 ^ 64) (hlt : doubleOfInt i < doubleOfInt j) : place i < place j := by
  have hcompare : (doubleOfInt i).toModel.unpack.compare (doubleOfInt j).toModel.unpack =
      some .lt := eq_of_beq (of_decide_eq_true hlt)
  by_cases hi : i = 0 <;> by_cases hj : j = 0
  · subst hi hj
    rw [unpack_doubleOfInt_zero] at hcompare
    cases hcompare
  · subst hi
    rw [unpack_doubleOfInt_zero, unpack_doubleOfInt hj hsmall'] at hcompare
    have hpos := Normal.place_pos_of_compare hcompare
    rwa [place_ofInt] at hpos
  · subst hj
    rw [unpack_doubleOfInt hi hsmall, unpack_doubleOfInt_zero] at hcompare
    have hneg := Normal.place_neg_of_compare hcompare
    rwa [place_ofInt] at hneg
  · rw [unpack_doubleOfInt hi hsmall, unpack_doubleOfInt hj hsmall'] at hcompare
    have horder := Normal.place_lt_of_compare hcompare
    rwa [place_ofInt, place_ofInt] at horder

/-- Whole numbers keep their order, although different ones can become the same number. -/
theorem not_doubleOfInt_gt {low high : Int} (hle : low ≤ high) (hlow : low.natAbs < 2 ^ 64)
    (hhigh : high.natAbs < 2 ^ 64) : ¬ doubleOfInt low > doubleOfInt high := fun hlt =>
  Int.not_le.mpr (place_lt_of_doubleOfInt_lt hhigh hlow hlt) (place_mono hle)

end Binary
end NetImport
