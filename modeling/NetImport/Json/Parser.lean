import NetImport.Json.Basic
import NetImport.Json.Text

/-!
# Reading JSON

The reader follows the grammar byte by byte.  Every value begins with a byte of
its own, so the length of the document bounds the depth of the recursion.
-/

namespace NetImport
namespace Json

def isBlank (byte : UInt8) : Bool :=
  byte == 0x20 || byte == 0x09 || byte == 0x0A || byte == 0x0D

def skipBlanks (bytes : List UInt8) : List UInt8 := bytes.dropWhile isBlank

def isDigit (byte : UInt8) : Bool := 0x30 ≤ byte && byte ≤ 0x39

def takeDigits (bytes : List UInt8) : List Nat × List UInt8 :=
  ((bytes.takeWhile isDigit).map fun byte => byte.toNat - 0x30, bytes.dropWhile isDigit)

/-- The digits before the point: a zero stands alone. -/
def readWhole? (bytes : List UInt8) : Option (List Nat × List UInt8) :=
  match takeDigits bytes with
  | ([], _) => none
  | (0 :: _ :: _, _) => none
  | digits => some digits

def readFraction? : List UInt8 → Option (Option (List Nat) × List UInt8)
  | 0x2E :: rest =>
      match takeDigits rest with
      | ([], _) => none
      | (digits, rest) => some (some digits, rest)
  | rest => some (none, rest)

def readExponent? : List UInt8 → Option (Option (Bool × List Nat) × List UInt8)
  | letter :: rest =>
      if letter == 0x65 || letter == 0x45 then
        let (negative, rest) :=
          match rest with
          | 0x2B :: rest => (false, rest)
          | 0x2D :: rest => (true, rest)
          | rest => (false, rest)
        match takeDigits rest with
        | ([], _) => none
        | (digits, rest) => some (some (negative, digits), rest)
      else some (none, letter :: rest)
  | [] => some (none, [])

def readNumeral? (bytes : List UInt8) : Option (JsonNumeral × List UInt8) := do
  let (negative, rest) :=
    match bytes with
    | 0x2D :: rest => (true, rest)
    | rest => (false, rest)
  let (whole, rest) ← readWhole? rest
  let (fraction, rest) ← readFraction? rest
  let (exponent, rest) ← readExponent? rest
  return (⟨negative, whole, fraction, exponent⟩, rest)

/-- Reads up to the closing quote.  Control characters must be escaped and
escapes must be of a known form; what they stand for is not looked at. -/
def readRaw? : List UInt8 → Option (List UInt8 × List UInt8)
  | [] => none
  | 0x22 :: rest => some ([], rest)
  | 0x5C :: 0x75 :: a :: b :: c :: d :: rest => do
      let _ ← JsonText.unit? a b c d
      let (raw, rest) ← readRaw? rest
      return (0x5C :: 0x75 :: a :: b :: c :: d :: raw, rest)
  | 0x5C :: letter :: rest => do
      let _ ← JsonText.shortEscape? letter
      let (raw, rest) ← readRaw? rest
      return (0x5C :: letter :: raw, rest)
  | byte :: rest =>
      if byte < 0x20 then none
      else if byte == 0x5C then none
      else do
        let (raw, rest) ← readRaw? rest
        return (byte :: raw, rest)

/-- The rest behind an expected word. -/
def readWord? : List UInt8 → List UInt8 → Option (List UInt8)
  | [], rest => some rest
  | w :: word, byte :: rest => if w == byte then readWord? word rest else none
  | _ :: _, [] => none

def nullWord : List UInt8 := Utf8.encode "null"
def trueWord : List UInt8 := Utf8.encode "true"
def falseWord : List UInt8 := Utf8.encode "false"

mutual

/-- Reads one value that begins at the first byte. -/
def readValue? : Nat → List UInt8 → Option (Json × List UInt8)
  | 0, _ => none
  | _ + 1, [] => none
  | fuel + 1, byte :: rest =>
      if byte == 0x22 then do
        let (raw, rest) ← readRaw? rest
        return (.string raw, rest)
      else if byte == 0x5B then
        match skipBlanks rest with
        | 0x5D :: rest => some (.array [], rest)
        | rest => do
            let (items, rest) ← readItems? fuel rest
            return (.array items, rest)
      else if byte == 0x7B then
        match skipBlanks rest with
        | 0x7D :: rest => some (.object [], rest)
        | rest => do
            let (members, rest) ← readMembers? fuel rest
            return (.object members, rest)
      else if byte == 0x6E then do
        return (.null, ← readWord? nullWord (byte :: rest))
      else if byte == 0x74 then do
        return (.bool true, ← readWord? trueWord (byte :: rest))
      else if byte == 0x66 then do
        return (.bool false, ← readWord? falseWord (byte :: rest))
      else do
        let (numeral, rest) ← readNumeral? (byte :: rest)
        return (.number numeral, rest)

def readItems? : Nat → List UInt8 → Option (List Json × List UInt8)
  | 0, _ => none
  | fuel + 1, bytes => do
      let (item, rest) ← readValue? fuel bytes
      match skipBlanks rest with
      | 0x5D :: rest => return ([item], rest)
      | 0x2C :: rest =>
          let (items, rest) ← readItems? fuel (skipBlanks rest)
          return (item :: items, rest)
      | _ => none

def readMembers? : Nat → List UInt8 → Option (List (List UInt8 × Json) × List UInt8)
  | 0, _ => none
  | fuel + 1, bytes =>
      match bytes with
      | 0x22 :: rest => do
          let (key, rest) ← readRaw? rest
          match skipBlanks rest with
          | 0x3A :: rest => do
              let (value, rest) ← readValue? fuel (skipBlanks rest)
              match skipBlanks rest with
              | 0x7D :: rest => return ([(key, value)], rest)
              | 0x2C :: rest =>
                  let (members, rest) ← readMembers? fuel (skipBlanks rest)
                  return ((key, value) :: members, rest)
              | _ => none
          | _ => none
      | _ => none

end

def parse? (bytes : List UInt8) : Option Json := do
  let (value, rest) ← readValue? (2 * bytes.length + 2) (skipBlanks bytes)
  if (skipBlanks rest).isEmpty then some value else none

end Json
end NetImport
