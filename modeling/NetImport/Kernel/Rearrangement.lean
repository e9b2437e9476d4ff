import NetImport.Kernel.Check

/-!
# Kernels that move elements

Reshaping, transposing, slicing, joining, broadcasting and selecting copy
elements of any type.  Each output cell names the input cell that it copies, by
coordinates or by position.
-/

namespace NetImport
namespace Kernel

/-- Copies the elements into a buffer of the same count. -/
def reshape (input output : Tensor) : Except TensorError Tensor := do
  requireSameDType "reshape" input.dtype output.dtype
  input.reshaped output.shape

/-! ## Transposition -/

/-- The positions name each axis of the rank exactly once. -/
def isPermutation (rank : Nat) (perm : List Nat) : Bool :=
  perm.length == rank && perm.all (· < rank) && decide perm.Nodup

def transposedShape (shape : Shape) (perm : List Nat) : Except TensorError Shape :=
  if isPermutation shape.rank perm then
    .ok ⟨perm.map fun p => shape.dims.getD p 0⟩
  else
    .error (.invalidArgument "transpose"
      s!"{listText perm} is not a permutation of rank {shape.rank}")

/-- The input position behind an output coordinate list. -/
def transposedOffset (dims perm coords : List Nat) : Nat :=
  total (List.zipWith (fun c p => c * (strides dims).getD p 0) coords perm)

/-- Axis `i` of the result is axis `perm[i]` of the input. -/
def transpose (input : Tensor) (perm : List Nat) (output : Tensor) :
    Except TensorError Tensor := do
  requireSameDType "transpose" input.dtype output.dtype
  let expected ← transposedShape input.shape perm
  requireShape "transpose (output)" expected output.shape
  return Tensor.tabulate input.dtype output.shape fun coords =>
    input.get (transposedOffset input.shape.dims perm coords)

/-! ## Slices -/

def boxFits : List Nat → List Nat → List Nat → Bool
  | [], [], [] => true
  | s :: start, n :: size, d :: dims => s + n ≤ d && boxFits start size dims
  | _, _, _ => false

/-- The input position behind an output coordinate list. -/
def slicedOffset (dims start coords : List Nat) : Nat :=
  offset dims (List.zipWith (· + ·) coords start)

/-- The box of the output's extents that begins at `start`. -/
def slice (input : Tensor) (start : List Nat) (output : Tensor) :
    Except TensorError Tensor := do
  requireSameDType "slice" input.dtype output.dtype
  if boxFits start output.shape.dims input.shape.dims then
    return Tensor.tabulate input.dtype output.shape fun coords =>
      input.get (slicedOffset input.shape.dims start coords)
  else
    .error (.invalidArgument "slice"
      (s!"window at {listText start} of size {output.shape.text} exceeds input " ++
        input.shape.text))

/-! ## Concatenation -/

def agreeExcept (axis : Nat) (lhs rhs : List Nat) : Bool :=
  lhs.length == rhs.length && lhs.set axis 0 == rhs.set axis 0

def concatShape (axis : Nat) : List Shape → Except TensorError Shape
  | [] => .error (.invalidArgument "concat" "no inputs")
  | first :: others =>
      if axis < first.rank then do
        let extents ← others.mapM fun shape =>
          if agreeExcept axis first.dims shape.dims then .ok (shape.dims.getD axis 0)
          else .error (.shapeMismatch "concat" first shape)
        return ⟨first.dims.set axis (first.dims.getD axis 0 + total extents)⟩
      else
        .error (.invalidArgument "concat" s!"axis {axis} out of range for {first.text}")

/-- The element that joined tensors hold at a coordinate list: each tensor takes
the next extent of the axis. -/
def joinedElement (dtype : DType) (axis : Nat) : List Tensor → List Nat → dtype.Element
  | [], _ => dtype.zero
  | tensor :: others, coords =>
      let place := coords.getD axis 0
      let extent := tensor.shape.dims.getD axis 0
      if place < extent then
        (elementsAs dtype tensor).getD (offset tensor.shape.dims coords) dtype.zero
      else joinedElement dtype axis others (coords.set axis (place - extent))

def concat (inputs : List Tensor) (axis : Nat) (output : Tensor) :
    Except TensorError Tensor := do
  match inputs with
  | [] => .error (.invalidArgument "concat" "no inputs")
  | first :: _ =>
      requireSameDType "concat" first.dtype output.dtype
      inputs.forM fun tensor => requireSameDType "concat" first.dtype tensor.dtype
      let expected ← concatShape axis (inputs.map Tensor.shape)
      requireShape "concat (output)" expected output.shape
      return Tensor.tabulate first.dtype output.shape (joinedElement first.dtype axis inputs)

/-! ## Broadcasting -/

def stretches : List Nat → List Nat → Bool
  | [], _ => true
  | _ :: _, [] => false
  | d :: dims, t :: target => (d == t || d == 1) && stretches dims target

def checkBroadcast (axis : Nat) (input target : Shape) : Except TensorError Unit :=
  if axis + input.rank ≤ target.rank ∧ stretches input.dims (target.dims.drop axis) then
    .ok ()
  else .error (.shapeMismatch "broadcast" input target)

/-- The input position behind an output coordinate list: axes of extent one stay
at their only place. -/
def broadcastOffset (dims : List Nat) (axis : Nat) (coords : List Nat) : Nat :=
  offset dims
    (List.zipWith (fun d c => if d = 1 then 0 else c) dims (coords.drop axis))

def broadcast (input : Tensor) (axis : Nat) (output : Tensor) : Except TensorError Tensor := do
  requireSameDType "broadcast" input.dtype output.dtype
  checkBroadcast axis input.shape output.shape
  return Tensor.tabulate input.dtype output.shape fun coords =>
    input.get (broadcastOffset input.shape.dims axis coords)

/-! ## Fills and selection -/

def splat (value : Float) (output : Tensor) : Tensor :=
  Tensor.splat output.dtype output.shape value

/-- Takes each element from the second or the third operand as the first one says. -/
def select (cond onTrue onFalse output : Tensor) : Except TensorError Tensor := do
  match cond.elements? .bool with
  | none => .error (.unsupportedDType "select" cond.dtype)
  | some mask =>
      requireSameDType "select" onTrue.dtype onFalse.dtype
      requireSameDType "select" onTrue.dtype output.dtype
      requireShape "select" cond.shape onTrue.shape
      requireShape "select" cond.shape onFalse.shape
      requireShape "select (output)" cond.shape output.shape
      let dtype := onTrue.dtype
      let other := elementsAs dtype onFalse
      Tensor.ofArray dtype output.shape
        (Array.zipWith (fun (chosen : Bool) (pair : dtype.Element × dtype.Element) =>
          if chosen then pair.1 else pair.2) mask (Array.zip onTrue.data other))

end Kernel
end NetImport
