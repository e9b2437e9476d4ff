import NetImport.Numeric.IntRange

/-!
# Binary interchange formats

A floating-point bit pattern denotes a signed multiple of a power of two, an
infinity or no number at all.  This file decodes patterns of either width into
that form and rounds exact ratios back to the nearest pattern, a half going to
the even neighbour.  Changing width, converting to and from the integers and
reading decimal numerals all go through these two functions, so each of them
is a statement about natural numbers.
-/

namespace NetImport

def twoPow (exponent : Nat) : Nat := Nat.pow 2 exponent

def tenPow (exponent : Nat) : Nat := Nat.pow 10 exponent

theorem twoPow_pos (exponent : Nat) : 0 < twoPow exponent := Nat.pow_pos (by decide)

theorem twoPow_succ (exponent : Nat) : twoPow (exponent + 1) = twoPow exponent * 2 := rfl

theorem tenPow_pos (exponent : Nat) : 0 < tenPow exponent := Nat.pow_pos (by decide)

namespace Binary

structure Format where
  fractionBits : Nat
  exponentBits : Nat
deriving DecidableEq, Repr

def single : Format := ⟨23, 8⟩

def double : Format := ⟨52, 11⟩

/-- What a bit pattern denotes.  `finite s m q` is `m * 2 ^ q`, negated when `s`
holds; zero keeps its sign. -/
inductive Datum where
  | finite (negative : Bool) (significand : Nat) (exponent : Int)
  | infinite (negative : Bool)
  | nan
deriving DecidableEq, Repr

namespace Format

def bias (format : Format) : Nat := twoPow (format.exponentBits - 1) - 1

/-- The exponent of the unit in the last place of every subnormal number. -/
def leastExponent (format : Format) : Int :=
  1 - (format.bias : Int) - (format.fractionBits : Int)

/-- The magnitude field of an infinity; larger magnitude fields denote no number. -/
def infinityBits (format : Format) : Nat :=
  (twoPow format.exponentBits - 1) * twoPow format.fractionBits

def signWeight (format : Format) : Nat :=
  twoPow (format.fractionBits + format.exponentBits)

def decode (format : Format) (bits : Nat) : Datum :=
  let negative : Bool := bits / format.signWeight % 2 == 1
  let magnitude := bits % format.signWeight
  let field := magnitude / twoPow format.fractionBits
  let fraction := magnitude % twoPow format.fractionBits
  if format.infinityBits < magnitude then .nan
  else if magnitude = format.infinityBits then .infinite negative
  else if field = 0 then .finite negative fraction format.leastExponent
  else .finite negative (twoPow format.fractionBits + fraction)
    (format.leastExponent + ((field : Int) - 1))

end Format

/-- The nearest natural number to a ratio, a half going to the even neighbour. -/
def roundHalfEven (num den : Nat) : Nat :=
  let quotient := num / den
  let remainder := num % den
  if 2 * remainder < den then quotient
  else if den < 2 * remainder then quotient + 1
  else quotient + quotient % 2

/-- The ratio `num / den` divided by `2 ^ exponent`, again as a ratio. -/
def scaleRatio (num den : Nat) (exponent : Int) : Nat × Nat :=
  (num * twoPow (-exponent).toNat, den * twoPow exponent.toNat)

/-- The greatest exponent of two whose power is at most the ratio `num / den`. -/
def ratioLog2 (num den : Nat) : Int :=
  let estimate := (num.log2 : Int) - (den.log2 : Int)
  let scaled := scaleRatio num den estimate
  if scaled.2 ≤ scaled.1 then estimate else estimate - 1

namespace Format

/-- The magnitude field nearest to the ratio `num / den`.  Consecutive fields
denote consecutive numbers, so a carry out of the significand needs no case of
its own, and everything from half a unit above the greatest finite number on
becomes infinite. -/
def roundMagnitude (format : Format) (num den : Nat) : Nat :=
  if num = 0 then 0
  else
    let exponent :=
      max (ratioLog2 num den - (format.fractionBits : Int)) format.leastExponent
    let scaled := scaleRatio num den exponent
    let binades := (exponent - format.leastExponent).toNat
    min (binades * twoPow format.fractionBits + roundHalfEven scaled.1 scaled.2)
      format.infinityBits

def signBits (format : Format) (negative : Bool) : Nat :=
  if negative then format.signWeight else 0

def encode (format : Format) : Datum → Nat
  | .finite negative significand exponent =>
      format.signBits negative +
        format.roundMagnitude (significand * twoPow exponent.toNat) (twoPow (-exponent).toNat)
  | .infinite negative => format.signBits negative + format.infinityBits
  | .nan => format.infinityBits + twoPow (format.fractionBits - 1)

end Format

namespace Datum

/-- The whole number next to a finite datum in the direction of zero. -/
def truncate (negative : Bool) (significand : Nat) (exponent : Int) : Int :=
  let magnitude := significand * twoPow exponent.toNat / twoPow (-exponent).toNat
  if negative then -(magnitude : Int) else magnitude

/-- Conversion into an integer range: fractions are dropped, what lies outside
goes to the nearer end, and no number at all goes to zero. -/
def saturate (range : IntRange) : Datum → Int
  | .nan => 0
  | .infinite negative => if negative then range.lowest else range.highest
  | .finite negative significand exponent =>
      range.clamp (truncate negative significand exponent)

end Datum

def ofDouble (x : Float) : Datum := double.decode x.toBits.toNat

def ofSingle (x : Float32) : Datum := single.decode x.toBits.toNat

def toDouble (datum : Datum) : Float := Float.ofBits (double.encode datum).toUInt64

def toSingle (datum : Datum) : Float32 := Float32.ofBits (single.encode datum).toUInt32

/-- The 64-bit number with the same value. -/
def widen (x : Float32) : Float := toDouble (ofSingle x)

def narrow (x : Float) : Float32 := toSingle (ofDouble x)

def ofInt (i : Int) : Datum := .finite (decide (i < 0)) i.natAbs 0

def doubleOfInt (i : Int) : Float := toDouble (ofInt i)

def singleOfInt (i : Int) : Float32 := toSingle (ofInt i)

end Binary
end NetImport
