import NetImport.Numeric.Binary

/-!
# Fixed decimal places

Reports show sizes, durations and tensor elements with a fixed number of
decimal places.  The exact value is rounded once, a half going to the even
neighbour, and the sign of a negative number stays even when all digits are
zero.
-/

namespace NetImport
namespace Decimal

open Binary

/-- A natural number padded with zeros on the left. -/
def padded (width n : Nat) : String :=
  let digits := Nat.toDigits 10 n
  String.ofList (List.replicate (width - digits.length) '0' ++ digits)

/-- The ratio `num / den` with `places` decimal places. -/
def ratioFixed (places num den : Nat) : String :=
  let scaled := roundHalfEven (num * tenPow places) den
  toString (scaled / tenPow places) ++
    (if places = 0 then "" else "." ++ padded places (scaled % tenPow places))

/-- A datum with `places` decimal places. -/
def fixed (places : Nat) : Datum → String
  | .nan => "NaN"
  | .infinite negative => if negative then "-inf" else "inf"
  | .finite negative significand exponent =>
      (if negative then "-" else "") ++
        ratioFixed places (significand * twoPow exponent.toNat) (twoPow (-exponent).toNat)

def kilobytes (bytes : Nat) : String := ratioFixed 1 bytes 1024

end Decimal
end NetImport
