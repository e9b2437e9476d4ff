import NetImport.Net.Message
import NetImport.TextForm.Schema

/-!
# Text form of net messages

A document whose fields are all as the schema says denotes a message.
-/

namespace NetImport
namespace TextForm

/-- The values of a field, list items and single ones alike, in order. -/
def valuesOf (name : String) (entries : List (String × Value)) : List Value :=
  entries.flatMap fun entry =>
    if entry.1 = name then
      match entry.2 with
      | .list items => items
      | value => [value]
    else []

def one? (read : Value → Option α) (name : String) (entries : List (String × Value)) :
    Option (Option α) := do
  return (← (valuesOf name entries).mapM read).getLast?

def many? (read : Value → Option α) (name : String) (entries : List (String × Value)) :
    Option (List α) :=
  (valuesOf name entries).mapM read

def asInt64? (value : Value) : Option Int64 :=
  (value.asInt? .signed64).map Int64.ofInt

def argument? : Value → Option ArgumentMessage
  | .message entries => do
      return {
        name? := ← one? Value.asText? "name" entries
        float? := ← one? Value.asSingle? "f" entries
        int? := ← one? asInt64? "i" entries
        bytes? := ← one? Value.asBytes? "s" entries
        floats := ← many? Value.asSingle? "floats" entries
        ints := ← many? asInt64? "ints" entries
        byteLists := ← many? Value.asBytes? "strings" entries }
  | _ => none

def operator? : Value → Option OperatorMessage
  | .message entries => do
      return {
        inputs := ← many? Value.asText? "input" entries
        outputs := ← many? Value.asText? "output" entries
        name? := ← one? Value.asText? "name" entries
        kind? := ← one? Value.asText? "type" entries
        args := ← many? argument? "arg" entries }
  | _ => none

def net? (entries : List (String × Value)) : Option NetMessage := do
  return {
    name? := ← one? Value.asText? "name" entries
    operators := ← many? operator? "op" entries
    externalInputs := ← many? Value.asText? "external_input" entries
    externalOutputs := ← many? Value.asText? "external_output" entries }

end TextForm

namespace NetDefinition

def ofText? (text : String) : Option NetDefinition := do
  let entries ← TextForm.document? text
  if TextForm.admitsEntries .net entries then
    return (← TextForm.net? entries).toDefinition
  else none

end NetDefinition
end NetImport
