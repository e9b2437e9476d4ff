import NetImport.Numeric.Shortest
import NetImport.Proofs.Json.Numerals
import Mathlib.Data.List.TakeWhile
import Mathlib.Data.Nat.Digits.Defs

/-!
# Digits of shortest numerals

No interval around a positive number holds zero, and taking the trailing zeros off a number
leaves at least its first digit.  A shortest numeral therefore has digits of its own, unless no
grid has a point in the interval.
-/

namespace NetImport
namespace Decimal

/-- A number has at least as many powers of ten as digits after the first. -/
theorem tenPow_le_of_lt_length {n places : Nat} (hn : n ≠ 0)
    (hplaces : places < (Nat.toDigits 10 n).length) : tenPow places ≤ n := by
  by_contra hsmall
  have hless : n < 10 ^ places := Nat.lt_of_not_le hsmall
  have hpos : 0 < places := by
    apply Nat.pos_of_ne_zero
    rintro rfl
    exact hn (Nat.lt_one_iff.mp hless)
  have hlength := Nat.toDigits_length 10 n places hpos hless
  omega

/-- Not every digit of a positive number is zero. -/
theorem length_trailing_lt {n : Nat} (hn : n ≠ 0) :
    ((Nat.toDigits 10 n).reverse.takeWhile (· = '0')).length < (Nat.toDigits 10 n).length := by
  have hprefix := List.takeWhile_prefix (l := (Nat.toDigits 10 n).reverse) (· = '0')
  have hle := hprefix.length_le
  rw [List.length_reverse] at hle
  apply Nat.lt_of_le_of_ne hle
  intro hlength
  have hall : (Nat.toDigits 10 n).reverse.takeWhile (· = '0') = (Nat.toDigits 10 n).reverse :=
    hprefix.eq_of_length (hlength.trans List.length_reverse.symm)
  apply hn
  apply eq_zero_of_head?_digitsOf
  obtain ⟨first, others, hdigits⟩ :=
    List.exists_cons_of_ne_nil (Nat.toDigits_ne_nil (n := n) (b := 10))
  have hfirst : first = '0' := by
    have hmem : first ∈ (Nat.toDigits 10 n).reverse := by
      rw [hdigits, List.mem_reverse]
      exact List.mem_cons_self ..
    exact of_decide_eq_true (List.takeWhile_eq_self_iff.mp hall first hmem)
  rw [digitsOf, hdigits, hfirst]
  rfl

theorem Numeral.digits_trim {numeral : Numeral} (hdigits : numeral.digits ≠ 0) :
    numeral.trim.digits ≠ 0 := by
  have hpower := tenPow_le_of_lt_length hdigits (length_trailing_lt hdigits)
  rw [trim, if_neg hdigits]
  exact Nat.ne_of_gt (Nat.div_pos hpower (tenPow_pos _))

theorem RoundingInterval.contains_zero {interval : RoundingInterval} (hlow : 0 < interval.low)
    {den : Nat} (hden : 0 < den) (unit : Nat) : interval.contains (0 * unit) den = false := by
  have hscaled : 0 < interval.low * (den * twoPow interval.exponent.toNat) :=
    Nat.mul_pos hlow (Nat.mul_pos hden (twoPow_pos _))
  have hclosed : ¬ interval.low * (den * twoPow interval.exponent.toNat) ≤ 0 :=
    Nat.not_le_of_gt hscaled
  rw [Nat.zero_mul, contains, Binary.scaleRatio]
  dsimp only
  rw [Nat.zero_mul, decide_eq_false hclosed, decide_eq_false (Nat.not_lt_zero _)]
  exact ite_self false

theorem digits_of_onGrid? {interval : RoundingInterval} (hlow : 0 < interval.low)
    {exponent : Int} {numeral : Numeral} (hgrid : onGrid? interval exponent = some numeral) :
    numeral.digits ≠ 0 := by
  have hzero := RoundingInterval.contains_zero hlow (tenPow_pos (-exponent).toNat)
    (powerOfTen exponent).1
  unfold onGrid? at hgrid
  extract_lets unit num den below hit at hgrid
  have hbelow : hit below = true → below ≠ 0 := by
    intro hhit heq
    rw [heq] at hhit
    exact Bool.false_ne_true (hzero.symm.trans hhit)
  split at hgrid
  next hfirst _ =>
    split at hgrid
    · cases hgrid
      exact hbelow hfirst
    · cases hgrid
      exact Nat.succ_ne_zero below
  next hfirst _ =>
    cases hgrid
    exact hbelow hfirst
  next =>
    cases hgrid
    exact Nat.succ_ne_zero below
  next => cases hgrid

/-- The shortest numeral of a positive number is zero in one way only. -/
theorem shortest_cases (format : Binary.Format) {significand : Nat} (hpos : 0 < significand)
    (exponent : Int) :
    shortest format significand exponent = ⟨0, 0⟩ ∨
      (shortest format significand exponent).digits ≠ 0 := by
  have hlow : 0 < (roundingInterval format significand exponent).low := by
    unfold roundingInterval
    dsimp only
    split <;> omega
  unfold shortest
  extract_lets interval top grids
  cases hfound : grids.findSome? (onGrid? interval) with
  | none => exact .inl rfl
  | some numeral =>
      obtain ⟨grid, -, hgrid⟩ := List.exists_of_findSome?_eq_some hfound
      exact .inr (Numeral.digits_trim (digits_of_onGrid? hlow hgrid))

end Decimal
end NetImport
