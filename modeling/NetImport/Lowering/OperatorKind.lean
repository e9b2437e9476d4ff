/-!
# Operators of predict nets

The operators that an import knows, and their names in net files.  A few of them
have a second name.
-/

namespace NetImport

inductive OperatorKind where
  | conv
  | maxPool
  | averagePool
  | concat
  | batchMatMul
  | matMul
  | fullyConnected
  | fullyConnectedTransposed
  | clip
  | replaceNaN
  | relu
  | sigmoid
  | tanh
  | softmax
  | add
  | sub
  | mul
  | div
  | sum
  | transpose
  | reshape
  | flatten
  | dropout
deriving DecidableEq, Repr

namespace OperatorKind

/-- The first name of an operator. -/
def label : OperatorKind → String
  | .conv => "Conv"
  | .maxPool => "MaxPool"
  | .averagePool => "AveragePool"
  | .concat => "Concat"
  | .batchMatMul => "BatchMatMul"
  | .matMul => "MatMul"
  | .fullyConnected => "FC"
  | .fullyConnectedTransposed => "FCTransposed"
  | .clip => "Clip"
  | .replaceNaN => "ReplaceNaN"
  | .relu => "Relu"
  | .sigmoid => "Sigmoid"
  | .tanh => "Tanh"
  | .softmax => "Softmax"
  | .add => "Add"
  | .sub => "Sub"
  | .mul => "Mul"
  | .div => "Div"
  | .sum => "Sum"
  | .transpose => "Transpose"
  | .reshape => "Reshape"
  | .flatten => "Flatten"
  | .dropout => "Dropout"

def parse? : String → Option OperatorKind
  | "Conv" => some .conv
  | "Conv2D" => some .conv
  | "MaxPool" => some .maxPool
  | "MaxPool2D" => some .maxPool
  | "AveragePool" => some .averagePool
  | "AveragePool2D" => some .averagePool
  | "Concat" => some .concat
  | "BatchMatMul" => some .batchMatMul
  | "MatMul" => some .matMul
  | "FC" => some .fullyConnected
  | "FCTransposed" => some .fullyConnectedTransposed
  | "Clip" => some .clip
  | "ReplaceNaN" => some .replaceNaN
  | "Relu" => some .relu
  | "Sigmoid" => some .sigmoid
  | "Tanh" => some .tanh
  | "Softmax" => some .softmax
  | "Add" => some .add
  | "Sub" => some .sub
  | "Mul" => some .mul
  | "Div" => some .div
  | "Sum" => some .sum
  | "Transpose" => some .transpose
  | "Reshape" => some .reshape
  | "Flatten" => some .flatten
  | "Dropout" => some .dropout
  | _ => none

theorem parse?_label (kind : OperatorKind) : parse? kind.label = some kind := by
  cases kind <;> rfl

end OperatorKind
end NetImport
