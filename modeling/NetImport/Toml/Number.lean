import NetImport.Numeric.Literal
import NetImport.Text.Digits
import NetImport.Toml.Basic

/-!
# Numbers, dates and times in TOML

Single underscores may stand between the digits of a number.  A decimal number
has no leading zeros; with a fraction or an exponent it is real.  The other
bases have a letter behind a zero and no sign.
-/

namespace NetImport
namespace Toml

open Digits

def readDigits? (isBaseDigit : Char → Bool) (chars : List Char) :
    Option (List Char × List Char) :=
  let isPart (c : Char) : Bool := isBaseDigit c || c == '_'
  let written := chars.takeWhile isPart
  let isDoubled := (written.zip (written.drop 1)).contains ('_', '_')
  if written = [] ∨ written.head? = some '_' ∨ written.getLast? = some '_' ∨ isDoubled then none
  else some (written.filter (· != '_'), chars.dropWhile isPart)

/-- A whole number within 64 signed bits. -/
def integer? (value : Int) : Option Toml :=
  if value ∈ IntRange.signed64 then some (.integer value) else none

/-- Reads the digits of a base behind its letter. -/
def readBased? (base : Nat) (isBaseDigit : Char → Bool) (chars : List Char) :
    Option (Toml × List Char) := do
  let (digits, rest) ← readDigits? isBaseDigit chars
  return (← integer? (numberOf base digits), rest)

def readFraction? : List Char → Option (Option (List Char) × List Char)
  | '.' :: rest => do
      let (digits, rest) ← readDigits? isDigit rest
      return (some digits, rest)
  | rest => some (none, rest)

def readSign : List Char → Option Bool × List Char
  | '-' :: rest => (some true, rest)
  | '+' :: rest => (some false, rest)
  | rest => (none, rest)

def readExponent? : List Char → Option (Option Int × List Char)
  | letter :: rest =>
      if letter == 'e' || letter == 'E' then do
        let (sign, rest) := readSign rest
        let (digits, rest) ← readDigits? isDigit rest
        let value : Nat := numberOf 10 digits
        return (some (if sign = some true then -(value : Int) else value), rest)
      else some (none, letter :: rest)
  | [] => some (none, [])

/-- The real number nearest to a numeral.  Overflow is refused above and ends in the
infinity below. -/
def real? (negative : Bool) (digits : Nat) (exponent : Int) : Option Toml :=
  let value := Decimal.readDouble negative digits exponent
  if value.isInf && !negative then none else some (.real value)

def readDecimal? (negative : Bool) (chars : List Char) : Option (Toml × List Char) := do
  let (whole, rest) ← readDigits? isDigit chars
  if whole.head? = some '0' ∧ 1 < whole.length then none
  else
    let (fraction, rest) ← readFraction? rest
    let (exponent, rest) ← readExponent? rest
    if fraction.isNone && exponent.isNone then
      let value : Nat := numberOf 10 whole
      return (← integer? (if negative then -(value : Int) else value), rest)
    else
      let decimals := fraction.getD []
      let value ← real? negative (numberOf 10 (whole ++ decimals))
        (exponent.getD 0 - (decimals.length : Int))
      return (value, rest)

def readNumber? (chars : List Char) : Option (Toml × List Char) :=
  let (sign, unsigned) := readSign chars
  let negative := sign == some true
  match unsigned with
  | 'i' :: 'n' :: 'f' :: rest => some (.real (Binary.toDouble (.infinite negative)), rest)
  | 'n' :: 'a' :: 'n' :: rest => some (.real (Binary.toDouble .nan), rest)
  | '0' :: 'x' :: rest => if sign.isSome then none else readBased? 16 isHex rest
  | '0' :: 'o' :: rest => if sign.isSome then none else readBased? 8 isOctal rest
  | '0' :: 'b' :: rest => if sign.isSome then none else readBased? 2 isBinary rest
  | _ => readDecimal? negative unsigned

/-- Reads a number of exactly `count` decimal digits within bounds. -/
def readPlaces? (count lowest highest : Nat) (chars : List Char) :
    Option (Nat × List Char) :=
  let digits := (chars.take count).takeWhile isDigit
  let value := numberOf 10 digits
  if digits.length = count ∧ lowest ≤ value ∧ value ≤ highest then
    some (value, chars.drop count)
  else none

/-- The rest behind one expected character. -/
def readMark? (mark : Char) : List Char → Option (List Char)
  | c :: rest => if c == mark then some rest else none
  | [] => none

def isLeapYear (year : Nat) : Bool :=
  year % 4 == 0 && (year % 100 != 0 || year % 400 == 0)

def daysOfMonth (year month : Nat) : Nat :=
  if month = 2 then (if isLeapYear year then 29 else 28)
  else if [4, 6, 9, 11].contains month then 30
  else 31

/-- The rest behind a date. -/
def skipDate? (chars : List Char) : Option (List Char) := do
  let (year, rest) ← readPlaces? 4 0 9999 chars
  let (month, rest) ← readPlaces? 2 1 12 (← readMark? '-' rest)
  let (_, rest) ← readPlaces? 2 1 (daysOfMonth year month) (← readMark? '-' rest)
  return rest

/-- The rest behind a time of day, which may end in a fraction of its seconds. -/
def skipTime? (chars : List Char) : Option (List Char) := do
  let (_, rest) ← readPlaces? 2 0 23 chars
  let (_, rest) ← readPlaces? 2 0 59 (← readMark? ':' rest)
  let (_, rest) ← readPlaces? 2 0 60 (← readMark? ':' rest)
  match rest with
  | '.' :: c :: more => return if isDigit c then more.dropWhile isDigit else rest
  | _ => return rest

/-- The rest behind a distance from universal time. -/
def skipOffset? : List Char → Option (List Char)
  | 'Z' :: rest => some rest
  | 'z' :: rest => some rest
  | chars =>
      match readSign chars with
      | (some _, rest) => do
          let (_, rest) ← readPlaces? 2 0 23 rest
          let (_, rest) ← readPlaces? 2 0 59 (← readMark? ':' rest)
          return rest
      | (none, _) => none

/-- The rest behind a time of day with its distance, after a letter or a blank. -/
def skipClock? : List Char → Option (List Char)
  | mark :: rest =>
      if mark == 'T' || mark == 't' || mark == ' ' then do
        let rest ← skipTime? rest
        return (skipOffset? rest).getD rest
      else none
  | [] => none

def readMoment? (chars : List Char) : Option (Toml × List Char) :=
  let rest? :=
    match skipDate? chars with
    | some rest => some ((skipClock? rest).getD rest)
    | none => skipTime? chars
  rest?.map fun rest =>
    (.moment (String.ofList (chars.take (chars.length - rest.length))), rest)

end Toml
end NetImport
