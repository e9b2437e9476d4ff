import NetImport.Json.Basic
import NetImport.Json.Text

/-!
# Writing JSON

A document is written either on one line or over several lines, with two spaces
of indentation for every level.
-/

namespace NetImport
namespace Json

def digitBytes (digits : List Nat) : List UInt8 := digits.map fun d => (0x30 + d).toUInt8

def numeralBytes (numeral : JsonNumeral) : List UInt8 :=
  (if numeral.negative then [0x2D] else []) ++ digitBytes numeral.whole ++
    (match numeral.fraction with
      | none => []
      | some digits => 0x2E :: digitBytes digits) ++
    (match numeral.exponent with
      | none => []
      | some (negative, digits) =>
          0x65 :: (if negative then 0x2D else 0x2B) :: digitBytes digits)

def quoted (raw : List UInt8) : List UInt8 := 0x22 :: (raw ++ [0x22])

def lineBreak (depth : Nat) : List UInt8 := 0x0A :: List.replicate (2 * depth) 0x20

mutual

def pretty (depth : Nat) : Json → List UInt8
  | .null => Utf8.encode "null"
  | .bool true => Utf8.encode "true"
  | .bool false => Utf8.encode "false"
  | .number numeral => numeralBytes numeral
  | .string raw => quoted raw
  | .array [] => [0x5B, 0x5D]
  | .array (item :: items) =>
      0x5B :: (lineBreak (depth + 1) ++ pretty (depth + 1) item ++
        prettyItems (depth + 1) items ++ lineBreak depth ++ [0x5D])
  | .object [] => [0x7B, 0x7D]
  | .object ((key, value) :: members) =>
      0x7B :: (lineBreak (depth + 1) ++ quoted key ++ [0x3A, 0x20] ++
        pretty (depth + 1) value ++ prettyMembers (depth + 1) members ++
        lineBreak depth ++ [0x7D])

def prettyItems (depth : Nat) : List Json → List UInt8
  | [] => []
  | item :: items =>
      0x2C :: (lineBreak depth ++ pretty depth item ++ prettyItems depth items)

def prettyMembers (depth : Nat) : List (List UInt8 × Json) → List UInt8
  | [] => []
  | (key, value) :: members =>
      0x2C :: (lineBreak depth ++ quoted key ++ [0x3A, 0x20] ++ pretty depth value ++
        prettyMembers depth members)

end

mutual

/-- A value on one line, without blanks. -/
def compact : Json → List UInt8
  | .null => Utf8.encode "null"
  | .bool true => Utf8.encode "true"
  | .bool false => Utf8.encode "false"
  | .number numeral => numeralBytes numeral
  | .string raw => quoted raw
  | .array [] => [0x5B, 0x5D]
  | .array (item :: items) => 0x5B :: (compact item ++ compactItems items)
  | .object [] => [0x7B, 0x7D]
  | .object ((key, value) :: members) =>
      0x7B :: (quoted key ++ 0x3A :: (compact value ++ compactMembers members))

def compactItems : List Json → List UInt8
  | [] => [0x5D]
  | item :: items => 0x2C :: (compact item ++ compactItems items)

def compactMembers : List (List UInt8 × Json) → List UInt8
  | [] => [0x7D]
  | (key, value) :: members =>
      0x2C :: (quoted key ++ 0x3A :: (compact value ++ compactMembers members))

end

def lineText (value : Json) : String := Utf8.decodeTolerantly (compact value)

def prettyText (value : Json) : String := Utf8.decodeTolerantly (pretty 0 value)

end Json
end NetImport
