import NetImport.Lowering.Convolution
import NetImport.Lowering.Elementwise
import NetImport.Lowering.Layout
import NetImport.Lowering.MatrixProduct
import NetImport.Lowering.OperatorKind

/-!
# Lowering operators

The lowering of an operator follows from its kind.
-/

namespace NetImport
namespace Lowering

def ofKind : OperatorKind → Operator → Lowering Unit
  | .conv => convolution
  | .maxPool => pooling .max
  | .averagePool => pooling .average
  | .concat => concat
  | .batchMatMul => batchMatMul
  | .matMul => matMul
  | .fullyConnected => fullyConnected false
  | .fullyConnectedTransposed => fullyConnected true
  | .clip => clip
  | .replaceNaN => replaceNaN
  | .relu => unary .relu
  | .sigmoid => unary .sigmoid
  | .tanh => unary .tanh
  | .softmax => softmax
  | .add => arithmetic .add
  | .sub => arithmetic .sub
  | .mul => arithmetic .mul
  | .div => arithmetic .div
  | .sum => sum
  | .transpose => transpose
  | .reshape => reshape
  | .flatten => flatten
  | .dropout => dropout

def operator (op : Operator) : Lowering Unit :=
  match OperatorKind.parse? op.kind with
  | none => throw (.unsupportedOperator op.kind)
  | some kind => ofKind kind op

end Lowering
end NetImport
