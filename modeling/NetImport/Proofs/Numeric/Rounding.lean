import NetImport.Numeric.Binary
import Mathlib

/-!
# Whole numbers as 64-bit numbers

Up to `2 ^ 53` every whole number is a 64-bit number.  From there on the 64-bit numbers are
the multiples of a power of two that grows with the magnitude, and a whole number goes to the
nearest one of them, a half going to the even multiple.
-/

namespace NetImport
namespace Binary

/-! ## The nearest natural number to a ratio -/

theorem roundHalfEven_cases (num den : Nat) :
    (roundHalfEven num den = num / den ∧ 2 * (num % den) ≤ den) ∨
      (roundHalfEven num den = num / den + 1 ∧ den ≤ 2 * (num % den)) := by
  unfold roundHalfEven
  dsimp only
  split
  · exact .inl ⟨rfl, by omega⟩
  · split
    · exact .inr ⟨rfl, by omega⟩
    · rcases Nat.mod_two_eq_zero_or_one (num / den) with heven | hodd
      · exact .inl ⟨by rw [heven, Nat.add_zero], by omega⟩
      · exact .inr ⟨by rw [hodd], by omega⟩

theorem div_le_roundHalfEven (num den : Nat) : num / den ≤ roundHalfEven num den := by
  rcases roundHalfEven_cases num den with ⟨hround, -⟩ | ⟨hround, -⟩ <;> omega

theorem roundHalfEven_le_succ (num den : Nat) : roundHalfEven num den ≤ num / den + 1 := by
  rcases roundHalfEven_cases num den with ⟨hround, -⟩ | ⟨hround, -⟩ <;> omega

theorem roundHalfEven_mul {den : Nat} (hden : 0 < den) (quotient : Nat) :
    roundHalfEven (quotient * den) den = quotient := by
  have hquotient : quotient * den / den = quotient := Nat.mul_div_cancel _ hden
  have hremainder : quotient * den % den = 0 := Nat.mul_mod_left quotient den
  rcases roundHalfEven_cases (quotient * den) den with ⟨hround, -⟩ | ⟨-, hhalf⟩
  · exact hround.trans hquotient
  · omega

theorem roundHalfEven_one (num : Nat) : roundHalfEven num 1 = num := by
  have hround := roundHalfEven_mul Nat.one_pos num
  rwa [Nat.mul_one] at hround

theorem roundHalfEven_mono {num num' den : Nat} (hle : num ≤ num') :
    roundHalfEven num den ≤ roundHalfEven num' den := by
  rcases Nat.lt_or_eq_of_le (Nat.div_le_div_right hle : num / den ≤ num' / den) with
    hless | hsame
  · calc roundHalfEven num den ≤ num / den + 1 := roundHalfEven_le_succ ..
      _ ≤ num' / den := hless
      _ ≤ roundHalfEven num' den := div_le_roundHalfEven ..
  · rcases roundHalfEven_cases num den with ⟨hround, -⟩ | ⟨hround, hhalf⟩
    · rw [hround, hsame]
      exact div_le_roundHalfEven ..
    · rcases roundHalfEven_cases num' den with ⟨-, hhalf'⟩ | ⟨hround', -⟩
      · -- Two remainders on the two sides of one half are the same remainder.
        have hsplit := Nat.div_add_mod num den
        have hsplit' := Nat.div_add_mod num' den
        rw [hsame] at hsplit
        obtain rfl : num = num' := by omega
        exact Nat.le_refl _
      · exact Nat.le_of_eq (by rw [hround, hround', hsame])

/-- The nearest multiple is at most half a unit away. -/
theorem two_mul_roundHalfEven_mul (num : Nat) {den : Nat} (hden : 0 < den) :
    2 * (roundHalfEven num den * den) ≤ 2 * num + den ∧
      2 * num ≤ 2 * (roundHalfEven num den * den) + den := by
  have hsplit := Nat.div_add_mod num den
  rw [Nat.mul_comm] at hsplit
  have hremainder := Nat.mod_lt num hden
  rcases roundHalfEven_cases num den with ⟨hround, hhalf⟩ | ⟨hround, hhalf⟩
  · rw [hround]
    omega
  · rw [hround, Nat.succ_mul (num / den) den]
    omega

/-! ## The nearest 64-bit number to a whole number -/

/-- The distance between the 64-bit numbers around a whole number, or one where that
distance is smaller. -/
def spacing (n : Nat) : Nat := twoPow (n.log2 - 52)

/-- The magnitude that a whole number has as a 64-bit number. -/
def nearestMultiple (n : Nat) : Nat := roundHalfEven n (spacing n) * spacing n

/-- The value that a whole number has as a 64-bit number. -/
def nearestDouble (i : Int) : Int :=
  if i < 0 then -(nearestMultiple i.natAbs : Int) else nearestMultiple i.natAbs

/-- A whole number with at most 53 significant bits. -/
def Fits (i : Int) : Prop :=
  ∃ significand exponent, significand < 2 ^ 53 ∧ i.natAbs = significand * twoPow exponent

variable {n n' : Nat} {i j : Int} {range : IntRange}

theorem twoPow_dvd {a b : Nat} (hle : a ≤ b) : twoPow a ∣ twoPow b := Nat.pow_dvd_pow 2 hle

theorem twoPow_le {a b : Nat} (hle : a ≤ b) : twoPow a ≤ twoPow b :=
  Nat.pow_le_pow_right Nat.two_pos hle

theorem spacing_pos (n : Nat) : 0 < spacing n := twoPow_pos _

theorem nearestMultiple_of_dvd (hdvd : spacing n ∣ n) : nearestMultiple n = n := by
  have hquotient : n / spacing n * spacing n = n := Nat.div_mul_cancel hdvd
  have hround := roundHalfEven_mul (spacing_pos n) (n / spacing n)
  rw [hquotient] at hround
  rw [nearestMultiple, hround, hquotient]

/-- The nearest 64-bit number is at most half of their distance away. -/
theorem two_mul_nearestMultiple (n : Nat) :
    2 * nearestMultiple n ≤ 2 * n + spacing n ∧ 2 * n ≤ 2 * nearestMultiple n + spacing n :=
  two_mul_roundHalfEven_mul n (spacing_pos n)

/-! ## Order -/

/-- Rounding stays on its side of every multiple. -/
theorem nearestMultiple_le_of_dvd {bound : Nat} (hdvd : spacing n ∣ bound) (hle : n ≤ bound) :
    nearestMultiple n ≤ bound := by
  obtain ⟨quotient, rfl⟩ := hdvd
  rw [Nat.mul_comm] at hle ⊢
  calc nearestMultiple n
      ≤ roundHalfEven (quotient * spacing n) (spacing n) * spacing n :=
        Nat.mul_le_mul_right _ (roundHalfEven_mono hle)
    _ = quotient * spacing n := by rw [roundHalfEven_mul (spacing_pos n)]

theorem le_nearestMultiple_of_dvd {bound : Nat} (hdvd : spacing n ∣ bound) (hle : bound ≤ n) :
    bound ≤ nearestMultiple n := by
  obtain ⟨quotient, rfl⟩ := hdvd
  rw [Nat.mul_comm] at hle ⊢
  calc quotient * spacing n
      = roundHalfEven (quotient * spacing n) (spacing n) * spacing n := by
        rw [roundHalfEven_mul (spacing_pos n)]
    _ ≤ nearestMultiple n := Nat.mul_le_mul_right _ (roundHalfEven_mono hle)

/-- Rounding does not leave the powers of two around a number. -/
theorem nearestMultiple_bounds (hn : n ≠ 0) :
    twoPow n.log2 ≤ nearestMultiple n ∧ nearestMultiple n ≤ twoPow (n.log2 + 1) := by
  have hlow : twoPow n.log2 ≤ n := Nat.log2_self_le hn
  have hhigh : n < twoPow (n.log2 + 1) := Nat.lt_log2_self
  constructor
  · exact le_nearestMultiple_of_dvd (twoPow_dvd (by omega)) hlow
  · exact nearestMultiple_le_of_dvd (twoPow_dvd (by omega)) (Nat.le_of_lt hhigh)

theorem log2_mono (hn : n ≠ 0) (hle : n ≤ n') : n.log2 ≤ n'.log2 :=
  (Nat.le_log2 (by omega)).mpr (Nat.le_trans (Nat.log2_self_le hn) hle)

theorem nearestMultiple_mono (hle : n ≤ n') : nearestMultiple n ≤ nearestMultiple n' := by
  by_cases hn : n = 0
  · subst hn
    exact Nat.zero_le _
  rcases Nat.lt_or_eq_of_le (log2_mono hn hle) with hless | hsame
  · calc nearestMultiple n ≤ twoPow (n.log2 + 1) := (nearestMultiple_bounds hn).2
      _ ≤ twoPow n'.log2 := twoPow_le hless
      _ ≤ nearestMultiple n' := (nearestMultiple_bounds (by omega)).1
  · simp only [nearestMultiple, spacing, hsame]
    exact Nat.mul_le_mul_right _ (roundHalfEven_mono hle)

theorem nearestDouble_mono (hle : i ≤ j) : nearestDouble i ≤ nearestDouble j := by
  unfold nearestDouble
  by_cases hnegative : j < 0
  · have hmagnitudes : nearestMultiple j.natAbs ≤ nearestMultiple i.natAbs :=
      nearestMultiple_mono (by omega)
    rw [if_pos hnegative, if_pos (by omega)]
    omega
  · rw [if_neg hnegative]
    split
    · omega
    · exact Int.ofNat_le.mpr (nearestMultiple_mono (by omega))

/-! ## Whole numbers that are 64-bit numbers -/

theorem spacing_dvd {significand exponent : Nat} (hsignificand : significand < 2 ^ 53) :
    spacing (significand * twoPow exponent) ∣ significand * twoPow exponent := by
  have hlog : (significand * twoPow exponent).log2 ≤ 52 + exponent := by
    rcases Nat.eq_zero_or_pos significand with rfl | hpos
    · simp
    · have hwidth : (significand * twoPow exponent).log2 < 53 + exponent := by
        rw [Nat.log2_lt (Nat.ne_of_gt (Nat.mul_pos hpos (twoPow_pos _))), Nat.pow_add]
        exact Nat.mul_lt_mul_of_pos_right hsignificand (twoPow_pos _)
      omega
  exact Nat.dvd_mul_left_of_dvd (twoPow_dvd (by omega)) significand

theorem nearestDouble_of_fits (hfits : Fits i) : nearestDouble i = i := by
  obtain ⟨significand, exponent, hsignificand, hvalue⟩ := hfits
  have hexact : nearestMultiple i.natAbs = i.natAbs := by
    rw [hvalue]
    exact nearestMultiple_of_dvd (spacing_dvd hsignificand)
  rw [nearestDouble, hexact]
  split <;> omega

theorem fits_of_natAbs_le (hi : i.natAbs ≤ 2 ^ 53) : Fits i := by
  rcases Nat.lt_or_eq_of_le hi with hless | hequal
  · exact ⟨i.natAbs, 0, hless, (Nat.mul_one _).symm⟩
  · exact ⟨1, 53, by decide, hequal⟩

/-- What is cut off at `2 ^ 53` or before is not changed by rounding. -/
theorem clamp_nearestDouble (hlow : -2 ^ 53 ≤ range.lowest) (hhigh : range.highest ≤ 2 ^ 53)
    (i : Int) : range.clamp (nearestDouble i) = range.clamp i := by
  by_cases hsmall : i.natAbs ≤ 2 ^ 53
  · rw [nearestDouble_of_fits (fits_of_natAbs_le hsmall)]
  · have hnearest : nearestDouble (2 ^ 53) = 2 ^ 53 :=
      nearestDouble_of_fits ⟨1, 53, by decide, rfl⟩
    have hnearest' : nearestDouble (-2 ^ 53) = -2 ^ 53 :=
      nearestDouble_of_fits ⟨1, 53, by decide, rfl⟩
    unfold IntRange.clamp
    by_cases hnegative : i < 0
    · have hbelow := @nearestDouble_mono i (-2 ^ 53) (by omega)
      omega
    · have habove := @nearestDouble_mono (2 ^ 53) i (by omega)
      omega

end Binary
end NetImport
