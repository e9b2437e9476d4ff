import NetImport.Numeric.Binary

/-!
# Shortest decimal numerals

A binary number is written with the fewest decimal digits that lie inside the
interval of reals rounding to it, and of these with the ones nearest to it.
Every comparison is between natural numbers: with the value at `4 * m` quarter
units, the interval ends are whole numbers of quarter units too.
-/

namespace NetImport
namespace Decimal

open Binary

/-- The number `digits * 10 ^ exponent`. -/
structure Numeral where
  digits : Nat
  exponent : Int
deriving DecidableEq, Repr

/-- The reals that round to a positive number, in multiples of `2 ^ exponent`.
The ends belong to the interval when `closed` holds. -/
structure RoundingInterval where
  low : Nat
  value : Nat
  high : Nat
  exponent : Int
  closed : Bool
deriving DecidableEq, Repr

/-- Below a power of two the gap to the next number is half the gap above it. -/
def roundingInterval (format : Format) (significand : Nat) (exponent : Int) :
    RoundingInterval where
  low :=
    if significand = twoPow format.fractionBits ∧ format.leastExponent < exponent then
      4 * significand - 1
    else 4 * significand - 2
  value := 4 * significand
  high := 4 * significand + 2
  exponent := exponent - 2
  closed := significand % 2 == 0

namespace RoundingInterval

/-- Membership of the ratio `num / den`. -/
def contains (interval : RoundingInterval) (num den : Nat) : Bool :=
  let scaled := scaleRatio num den interval.exponent
  if interval.closed then
    interval.low * scaled.2 ≤ scaled.1 && scaled.1 ≤ interval.high * scaled.2
  else
    interval.low * scaled.2 < scaled.1 && scaled.1 < interval.high * scaled.2

end RoundingInterval

def powerOfTen (exponent : Int) : Nat × Nat :=
  (tenPow exponent.toNat, tenPow (-exponent).toNat)

/-- The nearest point of the grid `10 ^ exponent` that reads back, if one of the
two points around the value does. -/
def onGrid? (interval : RoundingInterval) (exponent : Int) : Option Numeral :=
  let unit := powerOfTen exponent
  let num := interval.value * twoPow interval.exponent.toNat * unit.2
  let den := twoPow (-interval.exponent).toNat * unit.1
  let below := num / den
  let hit (digits : Nat) : Bool := interval.contains (digits * unit.1) unit.2
  match hit below, hit (below + 1) with
  | true, true =>
      let remainder := num % den
      if 2 * remainder < den ∨ (2 * remainder = den ∧ below % 2 = 0) then
        some ⟨below, exponent⟩
      else some ⟨below + 1, exponent⟩
  | true, false => some ⟨below, exponent⟩
  | false, true => some ⟨below + 1, exponent⟩
  | false, false => none

def digitCount (n : Nat) : Nat := (Nat.toDigits 10 n).length

/-- One more than the decimal exponent of a positive ratio, so that the ratio
lies between a tenth of that power of ten and the power itself. -/
def magnitude (num den : Nat) : Int :=
  let estimate := (digitCount num : Int) - (digitCount den : Int)
  let power := powerOfTen estimate
  if power.1 * den ≤ num * power.2 then estimate + 1 else estimate

/-- The numeral without the trailing zeros of its digits. -/
def Numeral.trim (numeral : Numeral) : Numeral :=
  let zeros := ((Nat.toDigits 10 numeral.digits).reverse.takeWhile (· = '0')).length
  if numeral.digits = 0 then numeral
  else ⟨numeral.digits / tenPow zeros, numeral.exponent + zeros⟩

def mostDigits : Nat := 17

/-- The shortest numeral of `significand * 2 ^ exponent`, for a positive significand. -/
def shortest (format : Format) (significand : Nat) (exponent : Int) : Numeral :=
  let interval := roundingInterval format significand exponent
  let top :=
    magnitude (significand * twoPow exponent.toNat) (twoPow (-exponent).toNat)
  let grids := (List.range mostDigits).map fun (n : Nat) => top - ((n : Int) + 1)
  ((grids.findSome? (onGrid? interval)).getD ⟨0, 0⟩).trim

def zeros (n : Nat) : String := String.ofList (List.replicate n '0')

/-- Positional notation, whatever the magnitude.  Whole numbers end in `.0` where
they must stay recognisable as fractions. -/
def positional (keepsFraction : Bool) (numeral : Numeral) : String :=
  let digits := Nat.toDigits 10 numeral.digits
  let point := (digits.length : Int) + numeral.exponent
  if 0 ≤ numeral.exponent then
    String.ofList digits ++ zeros numeral.exponent.toNat ++
      (if keepsFraction then ".0" else "")
  else if 0 < point then
    String.ofList (digits.take point.toNat) ++ "." ++
      String.ofList (digits.drop point.toNat)
  else "0." ++ zeros (-point).toNat ++ String.ofList digits

def finiteText (format : Format) (keepsFraction negative : Bool) (significand : Nat)
    (exponent : Int) : String :=
  (if negative then "-" else "") ++
    positional keepsFraction
      (if significand = 0 then ⟨0, 0⟩ else shortest format significand exponent)

def text (format : Format) : Datum → String
  | .nan => "NaN"
  | .infinite negative => if negative then "-inf" else "inf"
  | .finite negative significand exponent =>
      finiteText format false negative significand exponent

def doubleText (x : Float) : String := text double (ofDouble x)

end Decimal
end NetImport
