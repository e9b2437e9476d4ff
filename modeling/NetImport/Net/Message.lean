import NetImport.Net.Definition
import NetImport.Text.Utf8

/-!
# Nets as messages

In a net file of either message notation every field may be absent or, in the
case of lists, repeated.  A message keeps what the file says; a definition
settles what it means: which payload of an argument counts, which of two
arguments of one name, and that absent names are empty.
-/

namespace NetImport

/-- An argument with all its payloads; the bytes of texts need not be valid. -/
structure ArgumentMessage where
  name? : Option String
  float? : Option RawSingle
  int? : Option Int64
  bytes? : Option (List UInt8)
  floats : List RawSingle
  ints : List Int64
  byteLists : List (List UInt8)
deriving Inhabited

structure OperatorMessage where
  inputs : List String
  outputs : List String
  name? : Option String
  kind? : Option String
  args : List ArgumentMessage
deriving Inhabited

structure NetMessage where
  name? : Option String
  operators : List OperatorMessage
  externalInputs : List String
  externalOutputs : List String
deriving Inhabited

namespace ArgumentMessage

def empty : ArgumentMessage := ⟨none, none, none, none, [], [], []⟩

/-- The payload that counts: a text before a number, a fraction before a whole
number, single values before lists.  With no payload at all the value is an
empty list. -/
def value (message : ArgumentMessage) : ArgValue :=
  match message.bytes?, message.float?, message.int? with
  | some bytes, _, _ => .text (Utf8.decodeTolerantly bytes)
  | none, some x, _ => .float x
  | none, none, some i => .int i
  | none, none, none =>
      if message.floats ≠ [] then .floats message.floats
      else if message.byteLists ≠ [] then
        .texts (message.byteLists.map Utf8.decodeTolerantly)
      else .ints message.ints

def ofEntry (entry : String × ArgValue) : ArgumentMessage :=
  let named := { empty with name? := some entry.1 }
  match entry.2 with
  | .int i => { named with int? := some i }
  | .float x => { named with float? := some x }
  | .text text => { named with bytes? := some (Utf8.encode text) }
  | .ints values => { named with ints := values }
  | .floats values => { named with floats := values }
  | .texts values => { named with byteLists := values.map Utf8.encode }

def entry (message : ArgumentMessage) : String × ArgValue :=
  (message.name?.getD "", message.value)

end ArgumentMessage

namespace OperatorMessage

def empty : OperatorMessage := ⟨[], [], none, none, []⟩

def ofOperator (op : Operator) : OperatorMessage where
  inputs := op.inputs
  outputs := op.outputs
  name? := op.name?
  kind? := some op.kind
  args := op.args.entries.map ArgumentMessage.ofEntry

/-- Of arguments of one name the last counts, and an empty name is none. -/
def toOperator (message : OperatorMessage) : Operator where
  kind := message.kind?.getD ""
  inputs := message.inputs
  outputs := message.outputs
  name? := message.name?.filter fun name => name != ""
  args := Arguments.ofList (message.args.map ArgumentMessage.entry)

end OperatorMessage

namespace NetMessage

def empty : NetMessage := ⟨none, [], [], []⟩

def ofDefinition (net : NetDefinition) : NetMessage where
  name? := some net.name
  operators := net.operators.map OperatorMessage.ofOperator
  externalInputs := net.externalInputs
  externalOutputs := net.externalOutputs

def toDefinition (message : NetMessage) : NetDefinition where
  name := message.name?.getD ""
  operators := message.operators.map OperatorMessage.toOperator
  externalInputs := message.externalInputs
  externalOutputs := message.externalOutputs

end NetMessage
end NetImport
