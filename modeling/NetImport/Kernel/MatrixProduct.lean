import NetImport.Kernel.Check

/-!
# Matrix products

The product of an `m` by `k` and a `k` by `n` matrix is built row by row: a row
of zeros takes up, for each inner index in turn, the matching row of the right
factor scaled by the left element.
-/

namespace NetImport
namespace MatrixProduct

/-- Adds row `p` of the right factor, scaled, to a row of the result. -/
def addScaledRow (rhs : Array Float32) (n p : Nat) (scale : Float32)
    (row : Array Float32) : Array Float32 :=
  row.mapIdx fun j sum => sum + scale * rhs.getD (p * n + j) 0.0

/-- Row `i` of the result. -/
def row (lhs rhs : Array Float32) (k n i : Nat) : Array Float32 :=
  (List.range k).foldl
    (fun sums p => addScaledRow rhs n p (lhs.getD (i * k + p) 0.0) sums)
    (Array.replicate n 0.0)

def rows (lhs rhs : Array Float32) (m k n : Nat) : List Float32 :=
  (List.range m).flatMap fun i => (row lhs rhs k n i).toList

end MatrixProduct

namespace Kernel

def matrixProduct (lhs rhs output : Tensor) : Except TensorError Tensor := do
  let a ← requireSingle "matmul" lhs
  let b ← requireSingle "matmul" rhs
  let _ ← requireSingle "matmul" output
  match lhs.shape.matrixProduct? rhs.shape with
  | none => .error (.shapeMismatch "matmul" lhs.shape rhs.shape)
  | some (m, k, n) =>
      requireShape "matmul (output)" (Shape.matrix m n) output.shape
      Tensor.ofArray .f32 output.shape (MatrixProduct.rows a b m k n).toArray

end Kernel
end NetImport
