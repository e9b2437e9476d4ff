import NetImport.Lowering.Basic

/-!
# Lowering matrix products

A graph multiplies matrices only, so every product of tensors is brought to that
form: by flattening both operands at an axis, by folding the batch of the left
operand into its rows, or by one product for each position of the batch, joined
again afterwards.
-/

namespace NetImport
namespace Lowering

def transposeMatrix (op : Operator) (value : Handle) (suffix : String) : Lowering Handle :=
  build op fun graph => graph.transpose (nodeName op suffix) value [1, 0]

def flattenAt (op : Operator) (value : Handle) (arg : String) (axis : Nat)
    (suffix : String) : Lowering Handle := do
  let dims ← dimsOf op value
  if axis = 0 ∨ dims.length ≤ axis then
    throw (op.malformed arg
      s!"axis {axis} cannot split {Kernel.listText dims} into a matrix")
  reshapeTo op value (← matrixDims op dims axis) suffix

def matMul (op : Operator) : Lowering Unit := do
  let transA ← ofExcept (op.flagArg "trans_a")
  let transB ← ofExcept (op.flagArg "trans_b")
  let axisA ← ofExcept (op.naturalArg "axis_a" 1)
  let axisB ← ofExcept (op.naturalArg "axis_b" 1)
  let a ← input op 0
  let b ← input op 1
  let a ← flattenAt op a "axis_a" axisA "lhs_2d"
  let b ← flattenAt op b "axis_b" axisB "rhs_2d"
  let a ← if transA then transposeMatrix op a "lhs_t" else pure a
  let b ← if transB then transposeMatrix op b "rhs_t" else pure b
  bindOutput op 0 (← build op fun graph => graph.matrixProduct op.label a b)

/-- The product with a weight matrix, which is stored transposed or not, and the
sum with a bias for each column. -/
def fullyConnected (weightTransposed : Bool) (op : Operator) : Lowering Unit := do
  let axis ← ofExcept (op.naturalArg "axis" 1)
  let axisW ← ofExcept (op.naturalArg "axis_w" 1)
  let x ← input op 0
  let w ← input op 1
  let bias ← input op 2
  let xDims ← dimsOf op x
  let x ← flattenAt op x "axis" axis "input_2d"
  let w ← flattenAt op w "axis_w" axisW "weight_2d"
  let w ← if weightTransposed then pure w else transposeMatrix op w "weight_t"
  let result ← build op fun graph => graph.matrixProduct (nodeName op "matmul") x w
  let dims ← dimsOf op result
  let bias ← build op fun graph => graph.broadcast (nodeName op "bias") bias 1 dims
  let total ← build op fun graph => graph.arithmetic op.label .add result bias
  let (outer, _) ← splitAt op xDims axis
  let columns ← extentAt op dims 1
  bindOutput op 0 (← reshapeTo op total (outer ++ [columns]) "reshape")

structure BatchOperand where
  value : Handle
  batch : List Nat
  rows : Nat
  columns : Nat
  transposed : Bool

namespace BatchOperand

/-- A value whose last two axes are those of the matrices. -/
def read (op : Operator) (value : Handle) (transposed : Bool) : Lowering BatchOperand := do
  let dims ← dimsOf op value
  if dims.length < 2 then
    throw (shapeError op s!"operands must have rank >= 2, got {Kernel.listText dims}")
  let axis ← difference op dims.length 2
  let (batch, _) ← splitAt op dims axis
  return ⟨value, batch, ← extentAt op dims axis, ← extentAt op dims (axis + 1), transposed⟩

/-- There is one matrix, whatever the number of batch axes. -/
def isSingle (operand : BatchOperand) : Bool := operand.batch.all fun extent => extent == 1

def count (operand : BatchOperand) : Nat := product operand.batch

def oriented (operand : BatchOperand) (op : Operator) (matrix : Handle) (name : String) :
    Lowering Handle :=
  if operand.transposed then transposeMatrix op matrix s!"{name}_t" else return matrix

def toMatrix (operand : BatchOperand) (op : Operator) (side : String) : Lowering Handle := do
  let matrix ← reshapeTo op operand.value [operand.rows, operand.columns] s!"{side}_2d"
  operand.oriented op matrix side

/-- An operand with all batch axes in one. -/
def flattened (operand : BatchOperand) (op : Operator) (side : String) : Lowering Handle :=
  reshapeTo op operand.value [operand.count, operand.rows, operand.columns] s!"{side}_3d"

def matrixAt (operand : BatchOperand) (op : Operator) (flat : Handle) (position : Nat)
    (side : String) : Lowering Handle := do
  let name := s!"{side}{position}"
  let slice ← build op fun graph =>
    graph.slice (nodeName op name) flat [position, 0, 0] [1, operand.rows, operand.columns]
  let matrix ← build op fun graph =>
    graph.reshape (nodeName op s!"{name}_2d") slice [operand.rows, operand.columns]
  operand.oriented op matrix name

end BatchOperand

inductive MatrixSource where
  | sliced (flat : Handle)
  | shared (matrix : Handle)

/-- A single matrix is shared by all positions of a longer batch. -/
def matrixSource (op : Operator) (operand : BatchOperand) (count : Nat) (side : String) :
    Lowering MatrixSource := do
  if operand.isSingle ∧ operand.count ≠ count then
    return .shared (← operand.toMatrix op side)
  else return .sliced (← operand.flattened op side)

def matrixFrom (op : Operator) (operand : BatchOperand) (source : MatrixSource)
    (position : Nat) (side : String) : Lowering Handle :=
  match source with
  | .sliced flat => operand.matrixAt op flat position side
  | .shared matrix => return matrix

def productPerPosition (op : Operator) (lhs rhs : BatchOperand) (batch : List Nat) :
    Lowering Handle := do
  let count := product batch
  let lhsSource ← matrixSource op lhs count "lhs"
  let rhsSource ← matrixSource op rhs count "rhs"
  let products ← (List.range count).mapM fun (position : Nat) => do
    let a ← matrixFrom op lhs lhsSource position "lhs"
    let b ← matrixFrom op rhs rhsSource position "rhs"
    build op fun graph => graph.matrixProduct (nodeName op s!"matmul{position}") a b
  match products with
  | [] => throw (shapeError op "batch dims have no elements")
  | first :: _ => do
      let dims ← dimsOf op first
      let rows ← extentAt op dims 0
      let columns ← extentAt op dims 1
      let joined ← build op fun graph => graph.concat (nodeName op "concat") products 0
      build op fun graph => graph.reshape op.label joined (batch ++ [rows, columns])

/-- The product with one right matrix: the batch of the left operand is folded into
its rows. -/
def productWithSingle (op : Operator) (lhs rhs : BatchOperand) : Lowering Handle := do
  let axes := List.range lhs.batch.length
  let rank := lhs.batch.length + 2
  let a ←
    if lhs.transposed then
      build op fun graph =>
        graph.transpose (nodeName op "lhs_t") lhs.value (axes ++ [rank - 1, rank - 2])
    else pure lhs.value
  let (rows, inner) :=
    if lhs.transposed then (lhs.columns, lhs.rows) else (lhs.rows, lhs.columns)
  let a ← reshapeTo op a [lhs.count * rows, inner] "lhs_2d"
  let b ← rhs.toMatrix op "rhs"
  let result ← build op fun graph => graph.matrixProduct (nodeName op "matmul") a b
  let columns ← extentAt op (← dimsOf op result) 1
  let units := List.replicate (rhs.batch.length - lhs.batch.length) 1
  reshapeTo op result (units ++ lhs.batch ++ [rows, columns]) "reshape"

/-- The product of two batched operands.  Their batches are equal, or one operand is
a single matrix and the broadcast flag is set. -/
def batchProduct (op : Operator) (broadcast : Bool) (lhs rhs : BatchOperand) :
    Lowering Handle := do
  if lhs.batch.length ≠ rhs.batch.length ∧ ¬ broadcast then
    throw (shapeError op
      (s!"operand ranks differ ({lhs.batch.length + 2} vs {rhs.batch.length + 2}) " ++
        "and broadcast is not set"))
  if lhs.batch = [] ∧ rhs.batch = [] then
    let a ← lhs.toMatrix op "lhs"
    let b ← rhs.toMatrix op "rhs"
    build op fun graph => graph.matrixProduct op.label a b
  else if lhs.batch = rhs.batch then productPerPosition op lhs rhs lhs.batch
  else if ¬ broadcast then
    throw (shapeError op
      (s!"batch dims {Kernel.listText lhs.batch} and {Kernel.listText rhs.batch} " ++
        "differ and broadcast is not set"))
  else if rhs.isSingle then productWithSingle op lhs rhs
  else if lhs.isSingle then
    let units := List.replicate (lhs.batch.length - rhs.batch.length) 1
    productPerPosition op lhs rhs (units ++ rhs.batch)
  else
    throw (shapeError op
      (s!"cannot broadcast batch dims {Kernel.listText lhs.batch} " ++
        s!"against {Kernel.listText rhs.batch}"))

def batchMatMul (op : Operator) : Lowering Unit := do
  let transA ← ofExcept (op.flagArg "trans_a")
  let transB ← ofExcept (op.flagArg "trans_b")
  let broadcast ← ofExcept (op.flagArg "broadcast")
  let a ← input op 0
  let b ← input op 1
  let lhs ← BatchOperand.read op a transA
  let rhs ← BatchOperand.read op b transB
  bindOutput op 0 (← batchProduct op broadcast lhs rhs)

end Lowering
end NetImport
