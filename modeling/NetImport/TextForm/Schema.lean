import NetImport.TextForm.Document
import NetImport.Text.Utf8
import NetImport.Net.Argument

/-!
# Fields of net messages in the text notation

A file names its fields, so every field must be known, also those that an import
has no use for.  A field that is no list is given once at most; a list field may
be given as a list, item by item, or both.
-/

namespace NetImport
namespace TextForm

inductive MessageType where
  | device
  | argument
  | operator
  | net
deriving DecidableEq, Repr

inductive FieldType where
  | integer (range : IntRange)
  | flag
  | single
  | text
  | bytes
  | message (type : MessageType)
deriving DecidableEq, Repr

namespace FieldType

def int32 : FieldType := .integer .signed32
def uint32 : FieldType := .integer .unsigned32
def int64 : FieldType := .integer .signed64

end FieldType

structure FieldRule where
  name : String
  repeated : Bool
  type : FieldType
deriving DecidableEq, Repr

namespace MessageType

def rules : MessageType → List FieldRule
  | .device => [
      ⟨"device_type", false, .int32⟩,
      ⟨"device_id", false, .int32⟩,
      ⟨"random_seed", false, .uint32⟩,
      ⟨"node_name", false, .text⟩,
      ⟨"numa_node_id", false, .int32⟩,
      ⟨"extra_info", true, .text⟩]
  | .argument => [
      ⟨"name", false, .text⟩,
      ⟨"f", false, .single⟩,
      ⟨"i", false, .int64⟩,
      ⟨"s", false, .bytes⟩,
      ⟨"floats", true, .single⟩,
      ⟨"ints", true, .int64⟩,
      ⟨"strings", true, .bytes⟩,
      ⟨"n", false, .message .net⟩,
      ⟨"nets", true, .message .net⟩]
  | .operator => [
      ⟨"input", true, .text⟩,
      ⟨"output", true, .text⟩,
      ⟨"name", false, .text⟩,
      ⟨"type", false, .text⟩,
      ⟨"arg", true, .message .argument⟩,
      ⟨"device_option", false, .message .device⟩,
      ⟨"engine", false, .text⟩,
      ⟨"control_input", true, .text⟩,
      ⟨"is_gradient_op", false, .flag⟩,
      ⟨"debug_info", false, .text⟩,
      ⟨"domain", false, .text⟩,
      ⟨"op_version", false, .int64⟩]
  | .net => [
      ⟨"name", false, .text⟩,
      ⟨"op", true, .message .operator⟩,
      ⟨"type", false, .text⟩,
      ⟨"num_workers", false, .int32⟩,
      ⟨"device_option", false, .message .device⟩,
      ⟨"arg", true, .message .argument⟩,
      ⟨"external_input", true, .text⟩,
      ⟨"external_output", true, .text⟩]

def rule? (type : MessageType) (name : String) : Option FieldRule :=
  type.rules.find? fun rule => rule.name = name

end MessageType

namespace Value

/-- A whole number inside a range; without negative numbers there is no minus
sign either. -/
def asInt? (range : IntRange) : Value → Option Int
  | .integer negative value _ =>
      let signed : Int := if negative then -(value : Int) else value
      if signed ∈ range ∧ (negative → range.lowest < 0) then some signed
      else none
  | _ => none

/-- Truth values are words or the numbers zero and one. -/
def asFlag? : Value → Option Bool
  | .word false name =>
      if name = "true" ∨ name = "True" ∨ name = "t" then some true
      else if name = "false" ∨ name = "False" ∨ name = "f" then some false
      else none
  | .integer false 0 _ => some false
  | .integer false 1 _ => some true
  | _ => none

def wordDatum? (negative : Bool) (name : String) : Option Binary.Datum :=
  match name.toLower with
  | "inf" => some (.infinite negative)
  | "infinity" => some (.infinite negative)
  | "nan" => some .nan
  | _ => none

/-- The 32-bit pattern of a number that is rounded to 64 bits first.  A minus sign
turns the sign bit on whatever the number is. -/
def signedSingle (negative : Bool) (magnitude : Binary.Datum) : RawSingle :=
  let raw := RawSingle.ofDatum magnitude
  if negative then ⟨raw.bits ||| 0x80000000⟩ else raw

/-- A number; a whole one must be decimal. -/
def asSingle? : Value → Option RawSingle
  | .word negative name => (wordDatum? false name).map (signedSingle negative)
  | .integer negative value true =>
      some (signedSingle negative (Binary.ofDouble (Decimal.readDouble false value 0)))
  | .real negative digits exponent =>
      some (signedSingle negative (Binary.ofDouble (Decimal.readDouble false digits exponent)))
  | _ => none

def asBytes? : Value → Option (List UInt8)
  | .text bytes => some bytes
  | _ => none

def asText? (value : Value) : Option String := do Utf8.decode? (← value.asBytes?)

end Value

mutual

def admits : FieldType → Value → Bool
  | .message type, .message entries => admitsEntries type entries
  | .integer range, value => (value.asInt? range).isSome
  | .flag, value => value.asFlag?.isSome
  | .single, value => value.asSingle?.isSome
  | .text, value => value.asText?.isSome
  | .bytes, value => value.asBytes?.isSome
  | _, _ => false

def admitsItems : FieldType → List Value → Bool
  | _, [] => true
  | type, item :: items => admits type item && admitsItems type items

def admitsField : FieldRule → Value → Bool
  | rule, .list items => rule.repeated && admitsItems rule.type items
  | rule, value => admits rule.type value

/-- Whether every entry of a message is as its rule says, and none given twice that
may be given once. -/
def admitsEntries : MessageType → List (String × Value) → Bool
  | _, [] => true
  | type, (name, value) :: entries =>
      match type.rule? name with
      | none => false
      | some rule =>
          admitsField rule value &&
            (rule.repeated || entries.all fun entry => entry.1 != name) &&
            admitsEntries type entries

end

end TextForm
end NetImport
