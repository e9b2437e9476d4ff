import NetImport.Lowering.Basic

/-!
# Lowering layout operators

Concatenation along an axis or along a new one, transposition, reshaping,
flattening, and dropout, which does nothing once a net is trained.
-/

namespace NetImport
namespace Lowering

def concatAxis (op : Operator) : Except LoadError Int := do
  match ← op.intArg? "axis" with
  | some axis => return axis
  | none => return if (← op.textArg? "order") = some "NHWC" then 3 else 1

/-- Gives every value a last axis of extent one. -/
def expandAll (op : Operator) (dims : List Nat) : Nat → List Handle → Lowering (List Handle)
  | _, [] => return []
  | position, value :: values => do
      let expanded ← build op fun graph =>
        graph.reshape (nodeName op s!"expand{position}") value dims
      return expanded :: (← expandAll op dims (position + 1) values)

/-- Joins values of equal extents along a new axis.  Before the last axis, joining
along the old one and splitting that has the same order of elements. -/
def stack (op : Operator) (values : List Handle) (dims : List Nat) (axis : Nat) :
    Lowering Handle := do
  let (outer, inner) ← splitAt op dims axis
  if axis < dims.length then
    let joined ← build op fun graph => graph.concat op.label values axis
    build op fun graph =>
      graph.reshape (nodeName op "stack") joined (outer ++ values.length :: inner)
  else
    let expanded ← expandAll op (dims ++ [1]) 0 values
    build op fun graph => graph.concat op.label expanded axis

def splitInfo (op : Operator) (extents : List Nat) : Except LoadError Tensor := do
  let elements ← extents.mapM fun (extent : Nat) =>
    match DType.ofInt? .i32 extent with
    | some element => .ok element
    | none => .error (shapeError op s!"extent {extent} overflows i32")
  return Tensor.ofList .i32 elements

def concat (op : Operator) : Lowering Unit := do
  let addAxis ← ofExcept (op.flagArg "add_axis")
  let axis ← ofExcept (concatAxis op)
  let values ← allInputs op
  let shapes ← values.mapM (dimsOf op)
  match shapes with
  | [] => throw (.outOfDomain op.label)
  | first :: _ => do
      let (value, extents) ←
        if addAxis then do
          let axis ← canonicalAxis op "axis" axis (first.length + 1)
          match shapes.find? fun dims => dims ≠ first with
          | some dims =>
              throw (shapeError op
                (s!"add_axis needs equal input shapes, got {Kernel.listText first} " ++
                  s!"and {Kernel.listText dims}"))
          | none => pure (← stack op values first axis, shapes.map fun _ => 1)
        else do
          let axis ← canonicalAxis op "axis" axis first.length
          let extents := shapes.map fun dims => dims.getD axis 0
          pure (← build op fun graph => graph.concat op.label values axis, extents)
      bindOutput op 0 value
      if 1 < op.outputs.length then
        bindConstantOutput op 1 (← ofExcept (splitInfo op extents))

/-- Without a permutation the axes are reversed. -/
def transpose (op : Operator) : Lowering Unit := do
  let value ← input op 0
  let rank := (← dimsOf op value).length
  let perm := (← ofExcept (op.naturalsArg? "axes")).getD (List.range rank).reverse
  bindOutput op 0 (← build op fun graph => graph.transpose op.label value perm)

/-- Reads extents as a reshape gives them: zero stands for the extent of the input at
the same position, and a single minus one for the extent that is left over. -/
def readExtents (op : Operator) (input : List Nat) :
    Nat → Bool → List Int → Except LoadError (List (Option Nat))
  | _, _, [] => .ok []
  | position, open_, entry :: entries => do
      if entry = -1 then
        if open_ then .error (op.malformed "shape" "more than one -1")
        return none :: (← readExtents op input (position + 1) true entries)
      else if entry = 0 then
        match input[position]? with
        | some extent =>
            return some extent :: (← readExtents op input (position + 1) open_ entries)
        | none =>
            .error (op.malformed "shape"
              s!"0 at position {position} but the input has rank {input.length}")
      else if entry < 0 then .error (op.malformed "shape" s!"invalid dim {entry}")
      else return some entry.toNat :: (← readExtents op input (position + 1) open_ entries)

/-- The extents of a reshape that keeps the element count. -/
def resolveExtents (op : Operator) (input : List Nat) (spec : List Int) :
    Except LoadError (List Nat) := do
  let entries ← readExtents op input 0 false spec
  let total := product input
  let known := product (entries.map fun entry => entry.getD 1)
  let left := total / known
  if entries.contains none ∧ (known = 0 ∨ total % known ≠ 0) then
    .error (shapeError op
      (s!"cannot infer -1 reshaping {Kernel.listText input} to " ++
        bracketed (spec.map toString)))
  let dims := entries.map fun entry => entry.getD left
  if product dims ≠ total then
    .error (shapeError op
      (s!"reshape {Kernel.listText input} to {Kernel.listText dims} " ++
        "changes the element count"))
  return dims

def requestedExtents (op : Operator) : Lowering (List Int) := do
  match ← ofExcept (op.intsArg? "shape") with
  | some spec => return spec
  | none =>
      let source ← input op 1
      match ← constant? source with
      | none => throw (op.malformed "shape" "the shape input must be a weight")
      | some tensor =>
          let spec :=
            if tensor.dtype = .i32 ∨ tensor.dtype = .i64 then tensor.toInts? else none
          match spec with
          | some spec => return spec
          | none =>
              throw (op.malformed "shape"
                s!"the shape input must hold i32 or i64, got {tensor.dtype.label}")

def reshape (op : Operator) : Lowering Unit := do
  let value ← input op 0
  let inputDims ← dimsOf op value
  let spec ← requestedExtents op
  let dims ← ofExcept (resolveExtents op inputDims spec)
  bindOutput op 0 (← build op fun graph => graph.reshape op.label value dims)
  if 1 < op.outputs.length then
    bindConstantOutput op 1 (Tensor.ofList .i64 (inputDims.map Int64.ofNat))

def flatten (op : Operator) : Lowering Unit := do
  let value ← input op 0
  let dims ← dimsOf op value
  let axis ← ofExcept (op.naturalArg "axis" 1)
  if dims.length < axis then
    throw (op.malformed "axis" s!"axis {axis} out of range for rank {dims.length}")
  let matrix ← matrixDims op dims axis
  bindOutput op 0 (← build op fun graph => graph.reshape op.label value matrix)

/-- Passes its input on; a mask stays unbound. -/
def dropout (op : Operator) : Lowering Unit := do
  bindOutput op 0 (← input op 0)

end Lowering
end NetImport
