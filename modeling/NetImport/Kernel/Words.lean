import NetImport.Kernel.Convolution
import NetImport.Kernel.Pooling
import NetImport.Kernel.Rearrangement
import NetImport.Kernel.Storage
import NetImport.Tensor.Words

/-!
# Kernels in words

The kernels that do arithmetic on extents, with that arithmetic in words: the stops of a window,
the places that it covers, the end of a slice, the extent of a concatenation, the last axis of a
broadcast.  What a cut sum lets pass may lead out of a buffer later, which is a fault.
-/

namespace NetImport

open InPlace (Stop orFault)

/-! ## Windows -/

def windowStopsInWords? (bits kernel stride before after extent : Nat) : Option Nat :=
  let padded := Word.add bits (Word.add bits extent before) after
  if kernel = 0 ∨ stride = 0 then none
  else if padded < kernel then none
  else some (Word.add bits ((padded - kernel) / stride) 1)

namespace Window

def outputInWords? (bits : Nat) (window : Window) (input : Plane) : Option Plane := do
  let height ← windowStopsInWords? bits window.kernel.height window.stride.height
    window.padding.top window.padding.bottom input.height
  let width ← windowStopsInWords? bits window.kernel.width window.stride.width
    window.padding.left window.padding.right input.width
  return ⟨height, width⟩

/-- Twice the padded extents are words, so that every place of the window is a signed word. -/
def FitsWords (bits : Nat) (window : Window) (input : Plane) : Prop :=
  2 * (input.height + window.padding.top + window.padding.bottom) < twoPow bits ∧
    2 * (input.width + window.padding.left + window.padding.right) < twoPow bits

instance (bits : Nat) (window : Window) (input : Plane) :
    Decidable (window.FitsWords bits input) :=
  inferInstanceAs (Decidable (_ ∧ _))

end Window

/-- The taps of a window on one axis, with the place in the input found as a signed word. -/
def axisTapsInWords (bits kernel start padding extent : Nat) : List (Nat × Nat) :=
  (List.range kernel).filterMap fun i =>
    let place := Word.signed bits
      (Word.signed bits (Word.add bits start i) - Word.signed bits padding)
    if 0 ≤ place ∧ place < extent then some (i, place.toNat) else none

namespace Convolution

/-- The window fits in words on the planes of the input, and so do the channels of the groups. -/
def FitsWords (bits : Nat) (conv : Convolution) (input filter : Shape) : Prop :=
  conv.window.FitsWords bits ⟨input.dims.getD 2 0, input.dims.getD 3 0⟩ ∧
    filter.dims.getD 1 0 * conv.group < twoPow bits

instance (bits : Nat) (conv : Convolution) (input filter : Shape) :
    Decidable (conv.FitsWords bits input filter) :=
  inferInstanceAs (Decidable (_ ∧ _))

def outputShapeInWords (bits : Nat) (conv : Convolution) (input filter : Shape) :
    Except TensorError Shape :=
  let mismatch := .error (.shapeMismatch "conv2d" input filter)
  match input.dims, filter.dims with
  | [batch, channels, height, width], [outputs, depth, kernelHeight, kernelWidth] =>
      if conv.group = 0 then mismatch
      else if channels ≠ Word.mul bits depth conv.group ∨ outputs % conv.group ≠ 0 ∨
          conv.window.kernel ≠ ⟨kernelHeight, kernelWidth⟩ then mismatch
      else
        match conv.window.outputInWords? bits ⟨height, width⟩ with
        | some out => .ok ⟨[batch, outputs, out.height, out.width]⟩
        | none => mismatch
  | _, _ => mismatch

def tapsInWords (bits : Nat) (conv : Convolution) (extents : Extents)
    (outputs n output row column : Nat) : List (Nat × Nat) :=
  let firstChannel := output / (outputs / conv.group) * extents.depth
  let rows := axisTapsInWords bits extents.kernel.height
    (Word.mul bits row conv.window.stride.height) conv.window.padding.top extents.input.height
  let columns := axisTapsInWords bits extents.kernel.width
    (Word.mul bits column conv.window.stride.width) conv.window.padding.left extents.input.width
  (List.range extents.depth).flatMap fun channel =>
    rows.flatMap fun (i, inputRow) =>
      columns.map fun (j, inputColumn) =>
        (extents.inputOffset n (firstChannel + channel) inputRow inputColumn,
          extents.filterOffset output channel i j)

/-- The sum over the taps, each of which must lie inside its tensor. -/
def checkedCell (input filter : Array Float32) (bias : Float32) (taps : List (Nat × Nat)) :
    Except Stop Float32 :=
  taps.foldlM (fun acc (x, w) => do
    let a ← orFault input[x]?
    let b ← orFault filter[w]?
    return acc + a * b) bias

end Convolution

namespace Pooling

/-- The window fits in words on the planes of the input. -/
def FitsWords (bits : Nat) (pool : Pooling) (input : Shape) : Prop :=
  pool.window.FitsWords bits ⟨input.dims.getD 2 0, input.dims.getD 3 0⟩

instance (bits : Nat) (pool : Pooling) (input : Shape) : Decidable (pool.FitsWords bits input) :=
  inferInstanceAs (Decidable (pool.window.FitsWords bits _))

def outputShapeInWords (bits : Nat) (pool : Pooling) (input : Shape) :
    Except TensorError Shape :=
  match input.dims with
  | [batch, channels, height, width] =>
      match pool.window.outputInWords? bits ⟨height, width⟩ with
      | some out => .ok ⟨[batch, channels, out.height, out.width]⟩
      | none =>
          .error (.invalidArgument "pool2d"
            (s!"kernel {pool.window.kernel.text} with stride {pool.window.stride.text} " ++
              s!"does not fit input {input.text}"))
  | _ => .error (.invalidArgument "pool2d" s!"expected an NCHW input, got {input.text}")

/-- The places of a window, with start, padding and kernel taken for signed words. -/
def spanInWords (bits kernel start padding extent : Nat) : Nat × Nat :=
  let first := Word.signed bits (Word.signed bits start - Word.signed bits padding)
  let last := Word.signed bits (first + Word.signed bits kernel)
  ((max first 0).toNat, min (max last 0).toNat extent)

def cellInWords (bits : Nat) (pool : Pooling) (plane : Nat → Nat → Float32) (input : Plane)
    (row column : Nat) : Except TensorError Float32 := do
  let rows := spanInWords bits pool.window.kernel.height
    (Word.mul bits row pool.window.stride.height) pool.window.padding.top input.height
  let columns := spanInWords bits pool.window.kernel.width
    (Word.mul bits column pool.window.stride.width) pool.window.padding.left input.width
  return reduce pool.mode (← cells plane rows columns)

end Pooling

namespace Kernel

def convolutionInWords (bits : Nat) (conv : Convolution) (input filter : Tensor)
    (bias? : Option Tensor) (output : Tensor) : Except Stop Tensor := do
  let x ← requireSingle "conv2d" input
  let w ← requireSingle "conv2d" filter
  let _ ← requireSingle "conv2d" output
  let expected ← conv.outputShapeInWords bits input.shape filter.shape
  requireShape "conv2d (output)" expected output.shape
  match input.shape.dims, filter.shape.dims with
  | [_, channels, height, width], [outputs, depth, kernelHeight, kernelWidth] => do
      let bias ← requireBias bias? outputs
      let extents : Convolution.Extents :=
        ⟨channels, ⟨height, width⟩, depth, ⟨kernelHeight, kernelWidth⟩⟩
      let values ← output.shape.coordinates.mapM fun
        | [n, o, row, column] =>
            Convolution.checkedCell x w (bias.getD o 0.0)
              (conv.tapsInWords bits extents outputs n o row column)
        | _ => .ok 0.0
      Tensor.ofArray .f32 output.shape values.toArray
  | _, _ => .error (.refused (.shapeMismatch "conv2d" input.shape filter.shape))

def poolingInWords (bits : Nat) (pool : Pooling) (input output : Tensor) :
    Except TensorError Tensor := do
  let x ← requireSingle "pool2d" input
  let _ ← requireSingle "pool2d" output
  let expected ← pool.outputShapeInWords bits input.shape
  requireShape "pool2d (output)" expected output.shape
  match input.shape.dims with
  | [_, channels, height, width] =>
      let values ← output.shape.coordinates.mapM fun
        | [n, channel, row, column] =>
            let plane (r q : Nat) : Float32 :=
              x.getD (((n * channels + channel) * height + r) * width + q) 0.0
            pool.cellInWords bits plane ⟨height, width⟩ row column
        | _ => .ok 0.0
      Tensor.ofArray .f32 output.shape values.toArray
  | _ => .error (.invalidArgument "pool2d"
      s!"expected an NCHW input, got {input.shape.text}")

/-! ## Slices -/

/-- The ends of a slice are words, and so is every place of its input. -/
def SliceFitsWords (bits : Nat) (input : Shape) (start size : List Nat) : Prop :=
  (∀ pair ∈ start.zip size, pair.1 + pair.2 < twoPow bits) ∧ input.count < twoPow bits

def boxFitsInWords (bits : Nat) : List Nat → List Nat → List Nat → Bool
  | [], [], [] => true
  | s :: start, n :: size, d :: dims =>
      Word.add bits s n ≤ d && boxFitsInWords bits start size dims
  | _, _, _ => false

def slicedOffsetInWords (bits : Nat) (dims start coords : List Nat) : Nat :=
  totalInWords bits (List.zipWith (Word.mul bits)
    (List.zipWith (Word.add bits) coords start) (stridesInWords bits dims))

/-- The slicing kernel.  A position outside of the input is a fault. -/
def sliceInWords (bits : Nat) (input : Tensor) (start : List Nat) (output : Tensor) :
    Except Stop Tensor := do
  requireSameDType "slice" input.dtype output.dtype
  if boxFitsInWords bits start output.shape.dims input.shape.dims then do
    let elements ← output.shape.coordinates.mapM fun coords =>
      orFault input.data[slicedOffsetInWords bits input.shape.dims start coords]?
    Tensor.ofArray input.dtype output.shape elements.toArray
  else
    .error (.refused (.invalidArgument "slice"
      (s!"window at {listText start} of size {output.shape.text} exceeds input " ++
        input.shape.text)))

/-! ## Concatenation -/

/-- The extent of the result along the axis is a word. -/
def ConcatFitsWords (bits axis : Nat) (shapes : List Shape) : Prop :=
  total (shapes.map fun shape => shape.dims.getD axis 0) < twoPow bits

def concatShapeInWords (bits axis : Nat) : List Shape → Except TensorError Shape
  | [] => .error (.invalidArgument "concat" "no inputs")
  | first :: others =>
      if axis < first.rank then do
        let extents ← others.mapM fun shape =>
          if agreeExcept axis first.dims shape.dims then .ok (shape.dims.getD axis 0)
          else .error (.shapeMismatch "concat" first shape)
        return ⟨first.dims.set axis
          (extents.foldl (Word.add bits) (first.dims.getD axis 0))⟩
      else
        .error (.invalidArgument "concat" s!"axis {axis} out of range for {first.text}")

/-- The kernel that joins tensors.  The rows of the output must have room for all of them. -/
def concatInWords (bits : Nat) (inputs : List Tensor) (axis : Nat) (output : Tensor) :
    Except Stop Tensor := do
  match inputs with
  | [] => .error (.refused (.invalidArgument "concat" "no inputs"))
  | first :: _ => do
      requireSameDType "concat" first.dtype output.dtype
      (inputs.forM fun tensor => requireSameDType "concat" first.dtype tensor.dtype :
        Except TensorError Unit)
      let expected ← concatShapeInWords bits axis (inputs.map Tensor.shape)
      requireShape "concat (output)" expected output.shape
      if total (inputs.map fun tensor => tensor.shape.count) = output.shape.count then
        return Tensor.tabulate first.dtype output.shape (joinedElement first.dtype axis inputs)
      else .error .fault

/-! ## Broadcasting -/

/-- The extents of the target from the axis on are a cut, which begins inside the target. -/
def checkBroadcastInWords (bits axis : Nat) (input target : Shape) : Except Stop Unit :=
  if target.rank < Word.add bits axis input.rank then
    .error (.refused (.shapeMismatch "broadcast" input target))
  else if target.rank < axis then .error .fault
  else if (input.dims.zip (target.dims.drop axis)).all
      fun pair => pair.1 == pair.2 || pair.1 == 1 then .ok ()
  else .error (.refused (.shapeMismatch "broadcast" input target))

/-- The broadcasting kernel.  Every axis of the input must have one in the target. -/
def broadcastInWords (bits : Nat) (input : Tensor) (axis : Nat) (output : Tensor) :
    Except Stop Tensor := do
  requireSameDType "broadcast" input.dtype output.dtype
  checkBroadcastInWords bits axis input.shape output.shape
  if axis + input.shape.rank ≤ output.shape.rank then
    return Tensor.tabulate input.dtype output.shape fun coords =>
      input.get (broadcastOffset input.shape.dims axis coords)
  else .error .fault

end Kernel
end NetImport
