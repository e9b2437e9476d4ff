import NetImport.Numeric.Shortest

/-!
# Reading decimal numerals

A numeral is read as the binary number nearest to its exact value.  Numerals
far outside the range of the format are decided by their magnitude alone, so
that a short text never asks for a huge power of ten.
-/

namespace NetImport
namespace Decimal

open Binary

/-- No finite number of either format reaches this many integer places, and no
nonzero one has this many zeros after the point. -/
def placesLimit : Int := 400

/-- What the numeral `digits * 10 ^ exponent` denotes in a format. -/
def readMagnitude (format : Format) (digits : Nat) (exponent : Int) : Nat :=
  let places := (digitCount digits : Int) + exponent
  if digits = 0 then 0
  else if placesLimit < places then format.infinityBits
  else if places < -placesLimit then 0
  else
    let power := powerOfTen exponent
    format.roundMagnitude (digits * power.1) power.2

def readDouble (negative : Bool) (digits : Nat) (exponent : Int) : Float :=
  Float.ofBits (double.signBits negative + readMagnitude double digits exponent).toUInt64

end Decimal
end NetImport
