import NetImport.Files.Store
import NetImport.Graph.Error
import NetImport.Net.Notation

/-!
# Refusals of an import

An import is refused for one of these causes.  What goes wrong while an operator
is lowered names the operator.
-/

namespace NetImport

inductive LoadError where
  | nameConflict (name : String)
  | unboundInput (op name : String)
  | shapeMismatch (op detail : String)
  | unsupportedOperator (kind : String)
  | multipleOutputs (count : Nat)
  | malformedArgument (op arg detail : String)
  | unreadableFile (path : String) (cause : FileError)
  | invalidNet (cause : NotationError)
  /-- A list was read outside its bounds, or a difference went below zero. -/
  | outOfDomain (op : String)
deriving DecidableEq, Repr

namespace LoadError

def message : LoadError → String
  | .nameConflict name => s!"name '{name}' is already bound"
  | .unboundInput op name => s!"operator '{op}' reads unbound input '{name}'"
  | .shapeMismatch op detail => s!"shape mismatch in '{op}': {detail}"
  | .unsupportedOperator kind => s!"unsupported operator type '{kind}'"
  | .multipleOutputs count => s!"expected exactly one output, the net declares {count}"
  | .malformedArgument op arg detail => s!"malformed argument '{arg}' of '{op}': {detail}"
  | .unreadableFile path cause => s!"failed to read '{path}': {cause.mapMessage}"
  | .invalidNet cause => cause.message
  | .outOfDomain op => s!"index out of range in '{op}'"

/-- A refusal of a graph builder on behalf of an operator. -/
def ofGraphError (op : String) (error : GraphError) : LoadError :=
  if error.isArgumentError then .malformedArgument op "(builder)" error.message
  else .shapeMismatch op error.message

/-- The same, where the name of a new variable comes from the net. -/
def ofVariableError (op : String) : GraphError → LoadError
  | .duplicateName name => .nameConflict name
  | error => ofGraphError op error

end LoadError
end NetImport
