import NetImport.Kernel.Pooling

/-!
# Softmax of the rows of a matrix

Every row is shifted by its greatest element, so that no exponential exceeds
one, and divided by the sum of its exponentials.
-/

namespace NetImport
namespace Softmax

/-- The exponentials of a row, each times the reciprocal of their sum when that
sum is positive. -/
def normalize (row : List Float32) : List Float32 :=
  let top := row.foldl greater minusInfinity
  let powers := row.map fun x => (x - top).exp
  let sum := powers.foldl (· + ·) 0.0
  if sum > 0.0 then
    let scale := 1.0 / sum
    powers.map (· * scale)
  else powers

def rowsOf (columns : Nat) (count : Nat) (values : List Float32) : List (List Float32) :=
  match count with
  | 0 => []
  | count + 1 => values.take columns :: rowsOf columns count (values.drop columns)

end Softmax

namespace Kernel

def softmax (input output : Tensor) : Except TensorError Tensor := do
  let x ← requireSingle "softmax" input
  let _ ← requireSingle "softmax" output
  requireShape "softmax" input.shape output.shape
  match input.shape.dims with
  | [rows, columns] =>
      if columns = 0 then return output
      else
        Tensor.ofArray .f32 output.shape
          ((Softmax.rowsOf columns rows x.toList).flatMap Softmax.normalize).toArray
  | _ => .error (.invalidArgument "softmax"
      s!"expected a 2-D input, got {input.shape.text}")

end Kernel
end NetImport
