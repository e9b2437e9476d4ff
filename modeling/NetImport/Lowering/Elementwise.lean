import NetImport.Lowering.Basic

/-!
# Lowering elementwise operators

Activations, clipping, the replacement of missing numbers, arithmetic with its
explicit broadcast, sums and the softmax over trailing axes.
-/

namespace NetImport
namespace Lowering

/-- Bounds that are not given are those of the element type. -/
def clip (op : Operator) : Lowering Unit := do
  let value ← input op 0
  let dtype := (← typeOf op value).dtype
  let low := (← ofExcept (op.numberArg? "min")).getD dtype.lowest
  let high := (← ofExcept (op.numberArg? "max")).getD dtype.highest
  bindOutput op 0 (← build op fun graph => graph.clip op.label value low high)

/-- Selects a fixed number wherever the input is no number. -/
def replaceNaN (op : Operator) : Lowering Unit := do
  let value ← input op 0
  let type ← typeOf op value
  if !type.dtype.isFloat then
    throw (shapeError op
      s!"NaN replacement needs a floating-point input, got {type.dtype.label}")
  let fill := (← ofExcept (op.singleArg? "value")).getD 0.0
  let mask ← build op fun graph => graph.isNaN (nodeName op "isnan") value
  let splat ← build op fun graph =>
    graph.splat (nodeName op "value") type (Binary.widen fill)
  bindOutput op 0 (← build op fun graph => graph.select op.label mask splat value)

def unary (fn : UnaryOp) (op : Operator) : Lowering Unit := do
  let value ← input op 0
  bindOutput op 0 (← build op fun graph => graph.unary op.label fn value)

def softmax (op : Operator) : Lowering Unit := do
  let value ← input op 0
  let dims ← dimsOf op value
  let axis ← canonicalAxis op "axis" (← ofExcept (op.intArg "axis" 1)) dims.length
  let flat ← reshapeTo op value (← matrixDims op dims axis) "input_2d"
  let result ← build op fun graph => graph.softmax op.label flat
  bindOutput op 0 (← reshapeTo op result dims "reshape")

/-- The axis of the left operand at which the right one is laid down.  Without an
axis, or with minus one, its axes are the last ones. -/
def broadcastAxis (op : Operator) (axis : Int) (a b : List Nat) : Lowering Nat := do
  if a.length < b.length then
    throw (shapeError op s!"cannot broadcast {Kernel.listText b} into {Kernel.listText a}")
  let axis ←
    if axis = -1 then difference op a.length b.length
    else if axis < 0 then throw (op.malformed "axis" s!"invalid broadcast axis {axis}")
    else pure axis.toNat
  if a.length < axis + b.length then
    throw (shapeError op
      s!"{Kernel.listText b} does not fit {Kernel.listText a} at axis {axis}")
  return axis

/-- Arithmetic on operands of one shape; with the broadcast flag the right operand
may instead match a run of the axes of the left one. -/
def arithmetic (fn : ArithmeticOp) (op : Operator) : Lowering Unit := do
  let broadcast ← ofExcept (op.flagArg "broadcast")
  let axis ← ofExcept (op.intArg "axis" (-1))
  let lhs ← input op 0
  let rhs ← input op 1
  let a ← dimsOf op lhs
  let b ← dimsOf op rhs
  let rhs ←
    if broadcast ∧ a ≠ b then do
      let axis ← broadcastAxis op axis a b
      build op fun graph => graph.broadcast (nodeName op "rhs_broadcast") rhs axis a
    else pure rhs
  bindOutput op 0 (← build op fun graph => graph.arithmetic op.label fn lhs rhs)

/-- Adds the values to a partial sum, one node each; the last node has the name of
the operator. -/
def addAll (op : Operator) : Nat → Handle → List Handle → Lowering Handle
  | _, total, [] => return total
  | position, total, value :: values => do
      let name :=
        if values.isEmpty then op.label else nodeName op s!"partial{position}"
      let total ← build op fun graph => graph.arithmetic name .add total value
      addAll op (position + 1) total values

/-- The sum of all inputs, from left to right. -/
def sum (op : Operator) : Lowering Unit := do
  match ← allInputs op with
  | [] => throw (.outOfDomain op.label)
  | first :: others => bindOutput op 0 (← addAll op 1 first others)

end Lowering
end NetImport
