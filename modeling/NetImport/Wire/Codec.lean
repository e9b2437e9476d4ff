import NetImport.Net.Message
import NetImport.Wire.Field

/-!
# Wire form of net messages

Fields may come in any order.  Of a single value the last one counts, and lists
collect their items; a list of numbers may come item by item, packed into one
payload, or both.  Field numbers outside the schema are passed over, while a
known number with a payload of another form is refused.
-/

namespace NetImport
namespace Wire

/-- Groups may be nested so deep in a message that is no part of another one. -/
def deepest : Nat := 100

/-- The payloads of one field number, in order. -/
def payloads (number : Nat) (fields : List Field) : List Payload :=
  fields.filterMap fun field => if field.number = number then some field.payload else none

def Payload.asBytes? : Payload → Option (List UInt8)
  | .delimited bytes => some bytes
  | _ => none

def Payload.asText? (payload : Payload) : Option String := do Utf8.decode? (← payload.asBytes?)

/-- A 32-bit pattern with its least significant byte first. -/
def singleOfBytes (bytes : List UInt8) : RawSingle :=
  ⟨(bytes.foldr (fun (byte : UInt8) high => byte.toNat + 256 * high) 0).toUInt32⟩

def bytesOfSingle (x : RawSingle) : List UInt8 :=
  let n := x.bits.toNat
  [n.toUInt8, (n / 256).toUInt8, (n / 65536).toUInt8, (n / 16777216).toUInt8]

def intOfNat (n : Nat) : Int64 := n.toUInt64.toInt64

def natOfInt (i : Int64) : Nat := i.toUInt64.toNat

def Payload.asSingle? : Payload → Option RawSingle
  | .fixed32 bytes => some (singleOfBytes bytes)
  | _ => none

def Payload.asInt? : Payload → Option Int64
  | .varint n => some (intOfNat n)
  | _ => none

def readSingles? : List UInt8 → Option (List RawSingle)
  | [] => some []
  | a :: b :: c :: d :: rest =>
      (readSingles? rest).map (singleOfBytes [a, b, c, d] :: ·)
  | _ => none

def readInts? (bytes : List UInt8) : Option (List Int64) :=
  match bytes with
  | [] => some []
  | byte :: tail =>
      match _hread : Varint.read? (byte :: tail) with
      | none => none
      | some (n, rest) =>
          (readInts? rest).map (intOfNat n :: ·)
termination_by bytes.length
decreasing_by exact Varint.length_of_read? _hread

def Payload.asSingles? : Payload → Option (List RawSingle)
  | .delimited bytes => readSingles? bytes
  | payload => (payload.asSingle?).map ([·])

def Payload.asInts? : Payload → Option (List Int64)
  | .delimited bytes => readInts? bytes
  | payload => (payload.asInt?).map ([·])

/-- The value of a field that holds one: the last payload counts, and all must be
of its form. -/
def last? (read : Payload → Option α) (number : Nat) (fields : List Field) :
    Option (Option α) := do
  return (← (payloads number fields).mapM read).getLast?

def all? (read : Payload → Option α) (number : Nat) (fields : List Field) :
    Option (List α) :=
  (payloads number fields).mapM read

end Wire

open Wire

namespace ArgumentMessage

def ofFields? (fields : List Field) : Option ArgumentMessage := do
  return {
    name? := ← last? Payload.asText? 1 fields
    float? := ← last? Payload.asSingle? 2 fields
    int? := ← last? Payload.asInt? 3 fields
    bytes? := ← last? Payload.asBytes? 4 fields
    floats := (← all? Payload.asSingles? 5 fields).flatten
    ints := (← all? Payload.asInts? 6 fields).flatten
    byteLists := ← all? Payload.asBytes? 7 fields }

def encode (message : ArgumentMessage) : List UInt8 :=
  (message.name?.toList.flatMap fun name => encodeDelimited 1 (Utf8.encode name)) ++
    (message.float?.toList.flatMap fun x => encodeFixed32 2 (bytesOfSingle x)) ++
    (message.int?.toList.flatMap fun i => encodeVarint 3 (natOfInt i)) ++
    message.bytes?.toList.flatMap (encodeDelimited 4) ++
    (message.floats.flatMap fun x => encodeFixed32 5 (bytesOfSingle x)) ++
    (message.ints.flatMap fun i => encodeVarint 6 (natOfInt i)) ++
    message.byteLists.flatMap (encodeDelimited 7)

end ArgumentMessage

namespace OperatorMessage

def argument? (payload : Payload) : Option ArgumentMessage := do
  ArgumentMessage.ofFields? (← readFields? (deepest - 2) (← payload.asBytes?))

def ofFields? (fields : List Field) : Option OperatorMessage := do
  return {
    inputs := ← all? Payload.asText? 1 fields
    outputs := ← all? Payload.asText? 2 fields
    name? := ← last? Payload.asText? 3 fields
    kind? := ← last? Payload.asText? 4 fields
    args := ← all? argument? 5 fields }

def encode (message : OperatorMessage) : List UInt8 :=
  (message.inputs.flatMap fun name => encodeDelimited 1 (Utf8.encode name)) ++
    (message.outputs.flatMap fun name => encodeDelimited 2 (Utf8.encode name)) ++
    (message.name?.toList.flatMap fun name => encodeDelimited 3 (Utf8.encode name)) ++
    (message.kind?.toList.flatMap fun kind => encodeDelimited 4 (Utf8.encode kind)) ++
    message.args.flatMap fun arg => encodeDelimited 5 arg.encode

end OperatorMessage

namespace NetMessage

def operator? (payload : Payload) : Option OperatorMessage := do
  OperatorMessage.ofFields? (← readFields? (deepest - 1) (← payload.asBytes?))

def ofFields? (fields : List Field) : Option NetMessage := do
  return {
    name? := ← last? Payload.asText? 1 fields
    operators := ← all? operator? 2 fields
    externalInputs := ← all? Payload.asText? 7 fields
    externalOutputs := ← all? Payload.asText? 8 fields }

def encode (message : NetMessage) : List UInt8 :=
  (message.name?.toList.flatMap fun name => encodeDelimited 1 (Utf8.encode name)) ++
    (message.operators.flatMap fun op => encodeDelimited 2 op.encode) ++
    (message.externalInputs.flatMap fun name => encodeDelimited 7 (Utf8.encode name)) ++
    message.externalOutputs.flatMap fun name => encodeDelimited 8 (Utf8.encode name)

def decode? (bytes : List UInt8) : Option NetMessage := do
  ofFields? (← readFields? deepest bytes)

end NetMessage

namespace NetDefinition

def ofWire? (bytes : List UInt8) : Option NetDefinition :=
  (NetMessage.decode? bytes).map NetMessage.toDefinition

def toWire (net : NetDefinition) : List UInt8 := (NetMessage.ofDefinition net).encode

end NetDefinition
end NetImport
