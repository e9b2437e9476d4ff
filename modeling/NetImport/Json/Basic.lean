import NetImport.Numeric.Literal

/-!
# JSON values

A value keeps its numbers and strings as they were written.  What a numeral or
an escape means is settled where a value of a known kind is wanted, so that a
reader may pass over parts of a document that it has no use for.
-/

namespace NetImport

structure JsonNumeral where
  negative : Bool
  whole : List Nat
  fraction : Option (List Nat)
  /-- Sign (negative or not) and digits of the exponent. -/
  exponent : Option (Bool × List Nat)
deriving DecidableEq, Repr

/-- A JSON value.  Strings hold the bytes between their quotes. -/
inductive Json where
  | null
  | bool (value : Bool)
  | number (numeral : JsonNumeral)
  | string (raw : List UInt8)
  | array (items : List Json)
  | object (members : List (List UInt8 × Json))
deriving Repr

namespace JsonNumeral

def ofInt (i : Int) : JsonNumeral where
  negative := decide (i < 0)
  whole := (Nat.toDigits 10 i.natAbs).map fun c => c.toNat - '0'.toNat
  fraction := none
  exponent := none

/-- What a numeral stands for: whole numbers of 64 bits are kept exactly, and others are
numbers of the 64-bit format. -/
inductive Reading where
  | integer (value : Int)
  | real (datum : Binary.Datum)

/-- The same with machine numbers. -/
inductive Value where
  | integer (value : Int)
  | real (value : Float)

def appendDigits (significand : Nat) : List Nat → Nat × Nat
  | [] => (significand, 0)
  | digit :: digits =>
      if 10 * significand + digit < UInt64.size then
        let (value, taken) := appendDigits (10 * significand + digit) digits
        (value, taken + 1)
      else (significand, 0)

def digitsNat (digits : List Nat) : Nat :=
  digits.foldl (fun value digit => 10 * value + digit) 0

def greatestPower : Nat := 308

/-- A finite 64-bit number that is not negative, `significand * 2 ^ exponent`. -/
structure Magnitude where
  significand : Nat
  exponent : Int

namespace Magnitude

/-- The number nearest to a ratio, unless that is infinite. -/
def ofRatio? (num den : Nat) : Option Magnitude :=
  match Binary.double.decode (Binary.double.roundMagnitude num den) with
  | .finite _ significand exponent => some ⟨significand, exponent⟩
  | _ => none

def num (x : Magnitude) : Nat := x.significand * twoPow x.exponent.toNat

def den (x : Magnitude) : Nat := twoPow (-x.exponent).toNat

def times? (x y : Magnitude) : Option Magnitude := ofRatio? (x.num * y.num) (x.den * y.den)

def over? (x y : Magnitude) : Option Magnitude := ofRatio? (x.num * y.den) (x.den * y.num)

def powerOfTen? (exponent : Nat) : Option Magnitude := ofRatio? (tenPow exponent) 1

end Magnitude

/-- Scales by a power of ten, at most one correctly rounded factor at a time.
Overflow is refused; underflow ends at zero. -/
def scaleByTen : Nat → Magnitude → Int → Option Magnitude
  | 0, x, _ => some x
  | fuel + 1, x, exponent => do
      if exponent.natAbs ≤ greatestPower then
        let power ← Magnitude.powerOfTen? exponent.natAbs
        if 0 ≤ exponent then x.times? power else x.over? power
      else if x.significand = 0 then some x
      else if 0 ≤ exponent then none
      else
        scaleByTen fuel (← x.over? (← Magnitude.powerOfTen? greatestPower))
          (exponent + greatestPower)

/-- Two such factors take every significand to zero. -/
def scalingSteps : Nat := 4

/-- The number `significand * 10 ^ exponent`, as close as two roundings get. -/
def realOf? (negative : Bool) (significand : Nat) (exponent : Int) :
    Option Binary.Datum := do
  let x ← scaleByTen scalingSteps (← Magnitude.ofRatio? significand 1) exponent
  return .finite negative x.significand x.exponent

/-- The value of a numeral.  A whole number outside the 64-bit ranges, and minus
zero, are real; a real number beyond the finite range has no value. -/
def reading? (numeral : JsonNumeral) : Option Reading := do
  let (significand, taken) := appendDigits 0 numeral.whole
  let dropped := numeral.whole.length - taken
  match numeral.fraction, numeral.exponent with
  | none, none =>
      if dropped = 0 ∧ numeral.negative = false then return .integer significand
      else if dropped = 0 ∧ significand ≠ 0 ∧ significand ≤ 9223372036854775808 then
        return .integer (-significand)
      else return .real (← realOf? numeral.negative significand dropped)
  | fraction, exponent =>
      let (significand, taken) := appendDigits significand (fraction.getD [])
      let power : Int :=
        match exponent with
        | none => 0
        | some (negative, digits) =>
            if negative then -(digitsNat digits : Int) else digitsNat digits
      return .real (← realOf? numeral.negative significand
        ((dropped : Int) - (taken : Int) + power))

def value? (numeral : JsonNumeral) : Option Value :=
  numeral.reading?.map fun reading =>
    match reading with
    | .integer i => .integer i
    | .real datum => .real (Binary.toDouble datum)

end JsonNumeral
end NetImport
