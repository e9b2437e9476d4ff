import NetImport.Json.Text
import NetImport.Json.Parser
import NetImport.Json.Printer
import NetImport.Net.Definition

/-!
# Nets as JSON documents

A record is an object, whose members come in any order and may be left out when
they have a default, or an array of the same fields in a fixed order.  Of an
argument only the value is written; its kind is the first one that fits when it
is read back.
-/

namespace NetImport
namespace NetJson

/-- A finite number with its shortest digits: a point and at least one decimal
between a hundred-thousandth and ten to the thirteenth, an exponent beyond. -/
def realNumeral (negative : Bool) (numeral : Decimal.Numeral) : JsonNumeral :=
  let digits := (Nat.toDigits 10 numeral.digits).map fun c => c.toNat - '0'.toNat
  let point := (digits.length : Int) + numeral.exponent
  if 0 ≤ numeral.exponent ∧ point ≤ 13 then
    ⟨negative, digits ++ List.replicate numeral.exponent.toNat 0, some [0], none⟩
  else if 0 < point ∧ point ≤ 13 then
    ⟨negative, digits.take point.toNat, some (digits.drop point.toNat), none⟩
  else if -6 < point ∧ point ≤ 0 then
    ⟨negative, [0], some (List.replicate (-point).toNat 0 ++ digits), none⟩
  else
    let exponent := JsonNumeral.ofInt (point - 1)
    ⟨negative, digits.take 1, if digits.length = 1 then none else some (digits.drop 1),
      some (exponent.negative, exponent.whole)⟩

/-- A number that is not finite has no numeral. -/
def ofSingle (x : RawSingle) : Json :=
  match x.datum with
  | .finite negative 0 _ => .number ⟨negative, [0], some [0], none⟩
  | .finite negative significand exponent =>
      .number (realNumeral negative (Decimal.shortest Binary.single significand exponent))
  | _ => .null

def ofTexts (texts : List String) : Json := .array (texts.map Json.ofString)

def ofArgValue : ArgValue → Json
  | .int i => .ofInt i.toInt
  | .float x => ofSingle x
  | .text text => .ofString text
  | .ints values => .array (values.map fun i => .ofInt i.toInt)
  | .floats values => .array (values.map ofSingle)
  | .texts values => ofTexts values

def ofOperator (op : Operator) : Json :=
  .ofMembers (
    [("type", .ofString op.kind), ("input", ofTexts op.inputs), ("output", ofTexts op.outputs)] ++
    (op.name?.toList.map fun name => ("name", .ofString name)) ++
    [("arg", .ofMembers (op.args.entries.map fun (name, value) => (name, ofArgValue value)))])

def ofNet (net : NetDefinition) : Json :=
  .ofMembers [
    ("name", .ofString net.name),
    ("op", .array (net.operators.map ofOperator)),
    ("external_input", ofTexts net.externalInputs),
    ("external_output", ofTexts net.externalOutputs)]

def text? : Json → Option String
  | .string raw => JsonText.decode? raw
  | _ => none

def list? (read : Json → Option α) : Json → Option (List α)
  | .array items => items.mapM read
  | _ => none

/-- Whole numbers of 64 signed bits. -/
def int? : Json → Option Int64
  | .number numeral =>
      match numeral.reading? with
      | some (.integer i) => if i ∈ IntRange.signed64 then some (Int64.ofInt i) else none
      | _ => none
  | _ => none

/-- Any number, rounded once from its exact or 64-bit value. -/
def single? : Json → Option RawSingle
  | .number numeral =>
      match numeral.reading? with
      | some (.integer i) => some (.ofDatum (Binary.ofInt i))
      | some (.real datum) => some (.ofDatum datum)
      | none => none
  | _ => none

/-- A value of the first kind that fits. -/
def argValue? (json : Json) : Option ArgValue :=
  (int? json).map .int <|>
    (single? json).map .float <|>
    (text? json).map .text <|>
    (list? int? json).map .ints <|>
    (list? single? json).map .floats <|>
    (list? text? json).map .texts

def members? : List (List UInt8 × Json) → Option (List (String × Json))
  | [] => some []
  | (key, value) :: members => do
      return (← JsonText.decode? key, value) :: (← members? members)

def arguments? : Json → Option Arguments
  | .object members => do
      let entries ← (← members? members).mapM fun (name, value) => do
        return (name, ← argValue? value)
      return .ofList entries
  | _ => none

/-- The fields of a record, in the order of their names: none of them twice, and in
an array no more than there are. -/
def fields? (names : List String) : Json → Option (List (Option Json))
  | .object members => do
      let members ← members? members
      names.mapM fun name =>
        match members.filter fun member => member.1 = name with
        | [] => some none
        | [member] => some (some member.2)
        | _ => none
  | .array items =>
      if items.length ≤ names.length then
        some (items.map some ++ List.replicate (names.length - items.length) none)
      else none
  | _ => none

/-- The value of a field that may be left out. -/
def orElse (default : α) (read : Json → Option α) : Option Json → Option α
  | none => some default
  | some json => read json

/-- A text that may be left out or be null. -/
def nullableText? : Json → Option (Option String)
  | .null => some none
  | json => (text? json).map some

def operatorFields : List String := ["type", "input", "output", "name", "arg"]

def operator? (json : Json) : Option Operator := do
  match ← fields? operatorFields json with
  | [some kind, inputs, outputs, name, args] =>
      return {
        kind := ← text? kind
        inputs := ← orElse [] (list? text?) inputs
        outputs := ← orElse [] (list? text?) outputs
        name? := ← orElse none nullableText? name
        args := ← orElse .empty arguments? args }
  | _ => none

def netFields : List String := ["name", "op", "external_input", "external_output"]

def net? (json : Json) : Option NetDefinition := do
  match ← fields? netFields json with
  | [name, operators, externalInputs, externalOutputs] =>
      return {
        name := ← orElse "" text? name
        operators := ← orElse [] (list? operator?) operators
        externalInputs := ← orElse [] (list? text?) externalInputs
        externalOutputs := ← orElse [] (list? text?) externalOutputs }
  | _ => none

end NetJson

namespace NetDefinition

def ofJson? (bytes : List UInt8) : Option NetDefinition := do
  NetJson.net? (← Json.parse? bytes)

def toJson (net : NetDefinition) : String := Json.prettyText (NetJson.ofNet net)

end NetDefinition
end NetImport
