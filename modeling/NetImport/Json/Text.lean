import NetImport.Json.Basic
import NetImport.Text.Utf8

/-!
# Strings inside JSON

Between its quotes a string holds UTF-8 with escapes for the quote, the
backslash and the control characters; any character may be written as one or
two groups of four hexadecimal digits.
-/

namespace NetImport
namespace JsonText

def hexDigit? (byte : UInt8) : Option Nat :=
  if 0x30 ≤ byte && byte ≤ 0x39 then some (byte.toNat - 0x30)
  else if 0x41 ≤ byte && byte ≤ 0x46 then some (byte.toNat - 0x37)
  else if 0x61 ≤ byte && byte ≤ 0x66 then some (byte.toNat - 0x57)
  else none

def unit? (a b c d : UInt8) : Option Nat := do
  return (((← hexDigit? a) * 16 + (← hexDigit? b)) * 16 + (← hexDigit? c)) * 16
    + (← hexDigit? d)

def shortEscape? (letter : UInt8) : Option UInt8 :=
  if letter == 0x22 then some 0x22
  else if letter == 0x5C then some 0x5C
  else if letter == 0x2F then some 0x2F
  else if letter == 0x62 then some 0x08
  else if letter == 0x66 then some 0x0C
  else if letter == 0x6E then some 0x0A
  else if letter == 0x72 then some 0x0D
  else if letter == 0x74 then some 0x09
  else none

/-- Resolves the escapes.  A high surrogate must be followed by a low one, and a
low one must follow a high one. -/
def unescape? : List UInt8 → Option (List UInt8)
  | [] => some []
  | 0x5C :: 0x75 :: a :: b :: c :: d :: rest => do
      let high ← unit? a b c d
      if 0xDC00 ≤ high && high ≤ 0xDFFF then none
      else if 0xD800 ≤ high && high ≤ 0xDBFF then
        match rest with
        | 0x5C :: 0x75 :: e :: f :: g :: h :: rest => do
            let low ← unit? e f g h
            if 0xDC00 ≤ low && low ≤ 0xDFFF then
              let scalar := 0x10000 + (high - 0xD800) * 0x400 + (low - 0xDC00)
              return String.utf8EncodeChar (Char.ofNat scalar) ++ (← unescape? rest)
            else none
        | _ => none
      else return String.utf8EncodeChar (Char.ofNat high) ++ (← unescape? rest)
  | 0x5C :: letter :: rest => do return (← shortEscape? letter) :: (← unescape? rest)
  | [0x5C] => none
  | byte :: rest => do return byte :: (← unescape? rest)

def decode? (raw : List UInt8) : Option String := do
  Utf8.decode? (← unescape? raw)

def hexDigitByte (n : Nat) : UInt8 :=
  if n < 10 then (0x30 + n).toUInt8 else (0x57 + n).toUInt8

def escapeByte (byte : UInt8) : List UInt8 :=
  if byte == 0x22 then [0x5C, 0x22]
  else if byte == 0x5C then [0x5C, 0x5C]
  else if byte == 0x08 then [0x5C, 0x62]
  else if byte == 0x09 then [0x5C, 0x74]
  else if byte == 0x0A then [0x5C, 0x6E]
  else if byte == 0x0C then [0x5C, 0x66]
  else if byte == 0x0D then [0x5C, 0x72]
  else if byte < 0x20 then
    [0x5C, 0x75, 0x30, 0x30, hexDigitByte (byte.toNat / 16), hexDigitByte (byte.toNat % 16)]
  else [byte]

def encode (text : String) : List UInt8 := (Utf8.encode text).flatMap escapeByte

end JsonText

namespace Json

/-! ## Values whose texts and keys are escaped on the way in -/

def ofString (text : String) : Json := .string (JsonText.encode text)

def ofInt (i : Int) : Json := .number (.ofInt i)

def ofNat (n : Nat) : Json := ofInt n

/-- An object with the given members, in order. -/
def ofMembers (members : List (String × Json)) : Json :=
  .object (members.map fun (key, value) => (JsonText.encode key, value))

end Json
end NetImport
