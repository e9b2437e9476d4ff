import NetImport.Numeric.Literal
import NetImport.Text.Digits

/-!
# Tokens of the text notation

Blanks and comments from a hash to the end of its line separate tokens.  Numbers
have no sign of their own, and texts are sequences of bytes, since escapes can
denote any byte.
-/

namespace NetImport
namespace TextForm

open Digits

inductive Token where
  | word (name : String)
  /-- A whole number; one that is not decimal is octal or hexadecimal. -/
  | integer (value : Nat) (decimal : Bool)
  /-- The number `digits * 10 ^ exponent`. -/
  | real (digits : Nat) (exponent : Int)
  | text (bytes : List UInt8)
  | symbol (c : Char)
deriving DecidableEq, Repr

def isBlank (c : Char) : Bool :=
  c == ' ' || c == '\t' || c == '\n' || c == '\x0B' || c == '\x0C' || c == '\r'

/-- Drops blanks and comments; the flag says whether a comment is open. -/
def skipBlanks : Bool → List Char → List Char
  | _, [] => []
  | true, c :: rest => skipBlanks (c != '\n') rest
  | false, c :: rest =>
      if isBlank c then skipBlanks false rest
      else if c == '#' then skipBlanks true rest
      else c :: rest

def isWordStart (c : Char) : Bool :=
  ('a' ≤ c && c ≤ 'z') || ('A' ≤ c && c ≤ 'Z') || c == '_'

def isWordChar (c : Char) : Bool := isWordStart c || isDigit c

def shortEscape? : Char → Option UInt8
  | 'a' => some 0x07
  | 'b' => some 0x08
  | 'f' => some 0x0C
  | 'n' => some 0x0A
  | 'r' => some 0x0D
  | 't' => some 0x09
  | 'v' => some 0x0B
  | '?' => some 0x3F
  | '\\' => some 0x5C
  | '\'' => some 0x27
  | '"' => some 0x22
  | _ => none

/-- The bytes of a character given by exactly `count` hexadecimal digits. -/
def unicodeEscape? (count : Nat) (chars : List Char) : Option (List UInt8 × List Char) :=
  let digits := (chars.take count).takeWhile isHex
  let value := numberOf 16 digits
  if digits.length = count ∧ value.isValidChar then
    some (String.utf8EncodeChar (Char.ofNat value), chars.drop count)
  else none

/-- The byte given by up to `count` digits of a base. -/
def byteEscape? (base count : Nat) (isBaseDigit : Char → Bool) (chars : List Char) :
    Option (List UInt8 × List Char) :=
  let digits := (chars.take count).takeWhile isBaseDigit
  let value := numberOf base digits
  if digits ≠ [] ∧ value < 256 then some ([value.toUInt8], chars.drop digits.length)
  else none

def scanEscape? : List Char → Option (List UInt8 × List Char)
  | [] => none
  | letter :: rest =>
      match shortEscape? letter with
      | some byte => some ([byte], rest)
      | none =>
          if letter == 'x' || letter == 'X' then byteEscape? 16 2 isHex rest
          else if letter == 'u' then unicodeEscape? 4 rest
          else if letter == 'U' then unicodeEscape? 8 rest
          else byteEscape? 8 3 isOctal (letter :: rest)

/-- Reads up to the closing quote.  Every step takes a character off. -/
def scanText? : Nat → Char → List Char → Option (List UInt8 × List Char)
  | 0, _, _ => none
  | _ + 1, _, [] => none
  | fuel + 1, quote, c :: rest =>
      if c == quote then some ([], rest)
      else if c == '\n' || c == '\x00' then none
      else if c == '\\' then do
        let (bytes, rest) ← scanEscape? rest
        let (more, rest) ← scanText? fuel quote rest
        return (bytes ++ more, rest)
      else do
        let (more, rest) ← scanText? fuel quote rest
        return (String.utf8EncodeChar c ++ more, rest)

/-- The digits behind a point, if there is one. -/
def scanFraction : List Char → Option (List Char) × List Char
  | '.' :: rest => (some (rest.takeWhile isDigit), rest.dropWhile isDigit)
  | rest => (none, rest)

def scanExponent : List Char → Option Int × List Char
  | letter :: rest =>
      let (negative, digits) :=
        match rest with
        | '-' :: rest => (true, rest)
        | '+' :: rest => (false, rest)
        | rest => (false, rest)
      if (letter == 'e' || letter == 'E') && (digits.head?.map isDigit).getD false then
        let value : Nat := numberOf 10 (digits.takeWhile isDigit)
        (some (if negative then -(value : Int) else value), digits.dropWhile isDigit)
      else (none, letter :: rest)
  | [] => (none, [])

def scanSuffix : List Char → Bool × List Char
  | 'f' :: rest => (true, rest)
  | 'F' :: rest => (true, rest)
  | rest => (false, rest)

/-- A whole number must not run into a word. -/
def separated (token : Token) (rest : List Char) : Option (Token × List Char) :=
  if (rest.head?.map isWordStart).getD false then none else some (token, rest)

def scanDecimal? (chars : List Char) : Option (Token × List Char) :=
  let whole := chars.takeWhile isDigit
  let (fraction, rest) := scanFraction (chars.dropWhile isDigit)
  let (exponent, rest) := scanExponent rest
  let (suffix, rest) := scanSuffix rest
  if whole = [] ∧ fraction.getD [] = [] then none
  else if fraction.isSome || exponent.isSome || suffix then
    let decimals := fraction.getD []
    some (.real (numberOf 10 (whole ++ decimals))
      (exponent.getD 0 - (decimals.length : Int)), rest)
  else if 1 < whole.length ∧ whole.head? = some '0' ∧ whole.all isOctal then
    separated (.integer (numberOf 8 whole) false) rest
  else separated (.integer (numberOf 10 whole) true) rest

def scanNumber? : List Char → Option (Token × List Char)
  | '0' :: letter :: rest =>
      if (letter == 'x' || letter == 'X') && (rest.head?.map isHex).getD false then
        separated (.integer (numberOf 16 (rest.takeWhile isHex)) false)
          (rest.dropWhile isHex)
      else scanDecimal? ('0' :: letter :: rest)
  | chars => scanDecimal? chars

def symbols : List Char := [':', ',', ';', '{', '}', '<', '>', '[', ']', '-']

/-- Reads the token that begins at the first character. -/
def scanToken? (chars : List Char) : Option (Token × List Char) :=
  match chars with
  | [] => none
  | c :: rest =>
      if isWordStart c then
        some (.word (String.ofList (chars.takeWhile isWordChar)), chars.dropWhile isWordChar)
      else if isDigit c || c == '.' then scanNumber? chars
      else if c == '"' || c == '\'' then do
        let (bytes, rest) ← scanText? (rest.length + 1) c rest
        return (.text bytes, rest)
      else if symbols.contains c then some (.symbol c, rest)
      else none

/-- Reads tokens to the end.  Every token takes a character off. -/
def scanTokens? : Nat → List Char → Option (List Token)
  | 0, _ => none
  | fuel + 1, chars =>
      match skipBlanks false chars with
      | [] => some []
      | chars => do
          let (token, rest) ← scanToken? chars
          return token :: (← scanTokens? fuel rest)

def tokens? (text : String) : Option (List Token) :=
  scanTokens? (text.length + 1) text.toList

end TextForm
end NetImport
