import NetImport.Tensor.DType
import NetImport.Tensor.Shape

/-!
# Refusals of the tensor kernels

A kernel refuses operands for one of a few causes; the wording of each cause is
fixed here.
-/

namespace NetImport

inductive TensorError where
  | bufferSize (expected actual : Nat)
  | shapeMismatch (op : String) (lhs rhs : Shape)
  | unsupportedDType (op : String) (dtype : DType)
  | dtypeMismatch (op : String) (lhs rhs : DType)
  | invalidArgument (op : String) (detail : String)
  /-- A pooling window begins beyond the last column of its input. -/
  | windowPastEdge
deriving DecidableEq, Repr

namespace TensorError

def message : TensorError → String
  | .bufferSize expected actual =>
      s!"buffer size mismatch: expected {expected} elements, got {actual}"
  | .shapeMismatch op lhs rhs =>
      s!"incompatible shapes for {op}: {lhs.text} vs {rhs.text}"
  | .unsupportedDType op dtype => s!"unsupported dtype {dtype.label} for operation {op}"
  | .dtypeMismatch op lhs rhs => s!"dtype mismatch in {op}: {lhs.label} vs {rhs.label}"
  | .invalidArgument op detail => s!"invalid argument for {op}: {detail}"
  | .windowPastEdge => "a pooling window begins beyond the last input column"

end TensorError
end NetImport
