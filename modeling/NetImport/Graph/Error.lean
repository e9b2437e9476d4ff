import NetImport.Graph.Node

/-!
# Refusals of the graph builders

A builder refuses a node, and verification a graph, for one of these causes.
Refusals of the kernels' shape derivations become refusals of the node.
-/

namespace NetImport

inductive GraphError where
  | unknownValue (value : Handle)
  | shapeMismatch (op detail : String)
  | typeMismatch (op : String) (expected actual : DType)
  | invalidArgument (op detail : String)
  | duplicateName (name : String)
  | verification (node detail : String)
deriving DecidableEq, Repr

namespace GraphError

def message : GraphError → String
  | .unknownValue value => s!"unknown value {value.text}"
  | .shapeMismatch op detail => s!"shape mismatch in {op}: {detail}"
  | .typeMismatch op expected actual =>
      s!"type mismatch in {op}: expected {expected.label}, got {actual.label}"
  | .invalidArgument op detail => s!"invalid argument for {op}: {detail}"
  | .duplicateName name => s!"duplicate variable name '{name}'"
  | .verification node detail => s!"verification failed at node '{node}': {detail}"

/-- The cause lies in a parameter and not in the operands. -/
def isArgumentError : GraphError → Bool
  | .invalidArgument .. => true
  | .duplicateName .. => true
  | _ => false

def ofTensorError (error : TensorError) : GraphError :=
  match error with
  | .shapeMismatch op _ _ => .shapeMismatch op error.message
  | .bufferSize _ _ => .shapeMismatch "tensor" error.message
  | .unsupportedDType op dtype => .typeMismatch op .f32 dtype
  | .dtypeMismatch op lhs rhs => .typeMismatch op lhs rhs
  | .invalidArgument op detail => .invalidArgument op detail
  | .windowPastEdge => .invalidArgument "pool2d" error.message

end GraphError
end NetImport
