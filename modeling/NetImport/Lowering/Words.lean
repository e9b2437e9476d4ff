import NetImport.Graph.Words
import NetImport.Lowering.MatrixProduct

/-!
# Lowering matrix products in words

The lowerings of matrix products with the extents of the matrices, and the types of the nodes,
in words.  The steps that do no arithmetic on extents are the same as without.
-/

namespace NetImport
namespace Lowering

/-- Appends a node that types in words. -/
def buildInWords (bits : Nat) (op : Operator) (name : String) (kind : NodeKind) :
    Lowering Handle := do
  let work ← get
  match work.graph.appendInWords bits name kind with
  | .error (.refused error) => throw (.ofGraphError op.label error)
  | .error .fault => throw (.outOfDomain op.label)
  | .ok (graph, value) =>
      set { work with graph := graph }
      return value

def reshapeToInWords (bits : Nat) (op : Operator) (value : Handle) (dims : List Nat)
    (suffix : String) : Lowering Handle := do
  if (← dimsOf op value) = dims then return value
  else buildInWords bits op (nodeName op suffix) (.reshape value dims)

/-! ## Flattened operands -/

def matrixDimsInWords (bits : Nat) (op : Operator) (dims : List Nat) (axis : Nat) :
    Lowering (List Nat) := do
  let (outer, inner) ← splitAt op dims axis
  return [productInWords bits outer, productInWords bits inner]

def flattenAtInWords (bits : Nat) (op : Operator) (value : Handle) (arg : String) (axis : Nat)
    (suffix : String) : Lowering Handle := do
  let dims ← dimsOf op value
  if axis = 0 ∨ dims.length ≤ axis then
    throw (op.malformed arg
      s!"axis {axis} cannot split {Kernel.listText dims} into a matrix")
  reshapeToInWords bits op value (← matrixDimsInWords bits op dims axis) suffix

def matMulInWords (bits : Nat) (op : Operator) : Lowering Unit := do
  let transA ← ofExcept (op.flagArg "trans_a")
  let transB ← ofExcept (op.flagArg "trans_b")
  let axisA ← ofExcept (op.naturalArg "axis_a" 1)
  let axisB ← ofExcept (op.naturalArg "axis_b" 1)
  let a ← input op 0
  let b ← input op 1
  let a ← flattenAtInWords bits op a "axis_a" axisA "lhs_2d"
  let b ← flattenAtInWords bits op b "axis_b" axisB "rhs_2d"
  let a ← if transA then transposeMatrix op a "lhs_t" else pure a
  let b ← if transB then transposeMatrix op b "rhs_t" else pure b
  bindOutput op 0 (← build op fun graph => graph.matrixProduct op.label a b)

def fullyConnectedInWords (bits : Nat) (weightTransposed : Bool) (op : Operator) :
    Lowering Unit := do
  let axis ← ofExcept (op.naturalArg "axis" 1)
  let axisW ← ofExcept (op.naturalArg "axis_w" 1)
  let x ← input op 0
  let w ← input op 1
  let bias ← input op 2
  let xDims ← dimsOf op x
  let x ← flattenAtInWords bits op x "axis" axis "input_2d"
  let w ← flattenAtInWords bits op w "axis_w" axisW "weight_2d"
  let w ← if weightTransposed then pure w else transposeMatrix op w "weight_t"
  let result ← build op fun graph => graph.matrixProduct (nodeName op "matmul") x w
  let dims ← dimsOf op result
  let bias ← buildInWords bits op (nodeName op "bias") (.broadcast bias 1 dims)
  let total ← build op fun graph => graph.arithmetic op.label .add result bias
  let (outer, _) ← splitAt op xDims axis
  let columns ← extentAt op dims 1
  bindOutput op 0 (← reshapeToInWords bits op total (outer ++ [columns]) "reshape")

/-! ## Batches -/

namespace BatchOperand

def countInWords (bits : Nat) (operand : BatchOperand) : Nat := productInWords bits operand.batch

def toMatrixInWords (bits : Nat) (operand : BatchOperand) (op : Operator) (side : String) :
    Lowering Handle := do
  let matrix ← reshapeToInWords bits op operand.value [operand.rows, operand.columns]
    s!"{side}_2d"
  operand.oriented op matrix side

def flattenedInWords (bits : Nat) (operand : BatchOperand) (op : Operator) (side : String) :
    Lowering Handle :=
  reshapeToInWords bits op operand.value
    [operand.countInWords bits, operand.rows, operand.columns] s!"{side}_3d"

def matrixAtInWords (bits : Nat) (operand : BatchOperand) (op : Operator) (flat : Handle)
    (position : Nat) (side : String) : Lowering Handle := do
  let name := s!"{side}{position}"
  let slice ← buildInWords bits op (nodeName op name)
    (.slice flat [position, 0, 0] [1, operand.rows, operand.columns])
  let matrix ← buildInWords bits op (nodeName op s!"{name}_2d")
    (.reshape slice [operand.rows, operand.columns])
  operand.oriented op matrix name

end BatchOperand

def matrixSourceInWords (bits : Nat) (op : Operator) (operand : BatchOperand) (count : Nat)
    (side : String) : Lowering MatrixSource := do
  if operand.isSingle ∧ operand.countInWords bits ≠ count then
    return .shared (← operand.toMatrixInWords bits op side)
  else return .sliced (← operand.flattenedInWords bits op side)

def matrixFromInWords (bits : Nat) (op : Operator) (operand : BatchOperand)
    (source : MatrixSource) (position : Nat) (side : String) : Lowering Handle :=
  match source with
  | .sliced flat => operand.matrixAtInWords bits op flat position side
  | .shared matrix => return matrix

def productPerPositionInWords (bits : Nat) (op : Operator) (lhs rhs : BatchOperand)
    (batch : List Nat) : Lowering Handle := do
  let count := productInWords bits batch
  let lhsSource ← matrixSourceInWords bits op lhs count "lhs"
  let rhsSource ← matrixSourceInWords bits op rhs count "rhs"
  let products ← (List.range count).mapM fun (position : Nat) => do
    let a ← matrixFromInWords bits op lhs lhsSource position "lhs"
    let b ← matrixFromInWords bits op rhs rhsSource position "rhs"
    build op fun graph => graph.matrixProduct (nodeName op s!"matmul{position}") a b
  match products with
  | [] => throw (shapeError op "batch dims have no elements")
  | first :: _ => do
      let dims ← dimsOf op first
      let rows ← extentAt op dims 0
      let columns ← extentAt op dims 1
      let joined ← buildInWords bits op (nodeName op "concat") (.concat products 0)
      buildInWords bits op op.label (.reshape joined (batch ++ [rows, columns]))

def productWithSingleInWords (bits : Nat) (op : Operator) (lhs rhs : BatchOperand) :
    Lowering Handle := do
  let axes := List.range lhs.batch.length
  let rank := lhs.batch.length + 2
  let a ←
    if lhs.transposed then
      build op fun graph =>
        graph.transpose (nodeName op "lhs_t") lhs.value (axes ++ [rank - 1, rank - 2])
    else pure lhs.value
  let (rows, inner) :=
    if lhs.transposed then (lhs.columns, lhs.rows) else (lhs.rows, lhs.columns)
  let a ← reshapeToInWords bits op a [Word.mul bits (lhs.countInWords bits) rows, inner] "lhs_2d"
  let b ← rhs.toMatrixInWords bits op "rhs"
  let result ← build op fun graph => graph.matrixProduct (nodeName op "matmul") a b
  let columns ← extentAt op (← dimsOf op result) 1
  let units := List.replicate (rhs.batch.length - lhs.batch.length) 1
  reshapeToInWords bits op result (units ++ lhs.batch ++ [rows, columns]) "reshape"

def batchProductInWords (bits : Nat) (op : Operator) (broadcast : Bool)
    (lhs rhs : BatchOperand) : Lowering Handle := do
  if lhs.batch.length ≠ rhs.batch.length ∧ ¬ broadcast then
    throw (shapeError op
      (s!"operand ranks differ ({lhs.batch.length + 2} vs {rhs.batch.length + 2}) " ++
        "and broadcast is not set"))
  if lhs.batch = [] ∧ rhs.batch = [] then
    let a ← lhs.toMatrixInWords bits op "lhs"
    let b ← rhs.toMatrixInWords bits op "rhs"
    build op fun graph => graph.matrixProduct op.label a b
  else if lhs.batch = rhs.batch then productPerPositionInWords bits op lhs rhs lhs.batch
  else if ¬ broadcast then
    throw (shapeError op
      (s!"batch dims {Kernel.listText lhs.batch} and {Kernel.listText rhs.batch} " ++
        "differ and broadcast is not set"))
  else if rhs.isSingle then productWithSingleInWords bits op lhs rhs
  else if lhs.isSingle then
    let units := List.replicate (lhs.batch.length - rhs.batch.length) 1
    productPerPositionInWords bits op lhs rhs (units ++ rhs.batch)
  else
    throw (shapeError op
      (s!"cannot broadcast batch dims {Kernel.listText lhs.batch} " ++
        s!"against {Kernel.listText rhs.batch}"))

def batchMatMulInWords (bits : Nat) (op : Operator) : Lowering Unit := do
  let transA ← ofExcept (op.flagArg "trans_a")
  let transB ← ofExcept (op.flagArg "trans_b")
  let broadcast ← ofExcept (op.flagArg "broadcast")
  let a ← input op 0
  let b ← input op 1
  let lhs ← BatchOperand.read op a transA
  let rhs ← BatchOperand.read op b transB
  bindOutput op 0 (← batchProductInWords bits op broadcast lhs rhs)

end Lowering
end NetImport
