import NetImport.Kernel.Check
import NetImport.Kernel.Window

/-!
# Grouped convolution

The kernel is direct: each output cell adds, starting from the bias of its
channel, one product for every channel of its group and every window cell
inside the input, in that order.  Cells in the padding add nothing.
-/

namespace NetImport

structure Convolution where
  window : Window
  group : Nat
deriving DecidableEq, Repr, Inhabited

namespace Convolution

/-- The shape of the result for an input `[N, C, H, W]` and a filter
`[O, C / group, h, w]`. -/
def outputShape (conv : Convolution) (input filter : Shape) : Except TensorError Shape :=
  let mismatch := .error (.shapeMismatch "conv2d" input filter)
  match input.dims, filter.dims with
  | [batch, channels, height, width], [outputs, depth, kernelHeight, kernelWidth] =>
      if conv.group = 0 then mismatch
      else if channels ≠ depth * conv.group ∨ outputs % conv.group ≠ 0 ∨
          conv.window.kernel ≠ ⟨kernelHeight, kernelWidth⟩ then mismatch
      else
        match conv.window.output? ⟨height, width⟩ with
        | some out => .ok ⟨[batch, outputs, out.height, out.width]⟩
        | none => mismatch
  | _, _ => mismatch

/-- Extents that a convolution reads: the input planes, and the depth and extent
of each filter. -/
structure Extents where
  channels : Nat
  input : Plane
  depth : Nat
  kernel : Plane
deriving DecidableEq, Repr

def Extents.inputOffset (extents : Extents) (n channel row column : Nat) : Nat :=
  ((n * extents.channels + channel) * extents.input.height + row) * extents.input.width
    + column

def Extents.filterOffset (extents : Extents) (output channel row column : Nat) : Nat :=
  ((output * extents.depth + channel) * extents.kernel.height + row) *
    extents.kernel.width + column

/-- Input and filter positions of the products that one output cell adds, in the
order in which it adds them. -/
def taps (conv : Convolution) (extents : Extents) (outputs n output row column : Nat) :
    List (Nat × Nat) :=
  let firstChannel := output / (outputs / conv.group) * extents.depth
  let rows := axisTaps extents.kernel.height (row * conv.window.stride.height)
    conv.window.padding.top extents.input.height
  let columns := axisTaps extents.kernel.width (column * conv.window.stride.width)
    conv.window.padding.left extents.input.width
  (List.range extents.depth).flatMap fun channel =>
    rows.flatMap fun (i, inputRow) =>
      columns.map fun (j, inputColumn) =>
        (extents.inputOffset n (firstChannel + channel) inputRow inputColumn,
          extents.filterOffset output channel i j)

def cell (input filter : Array Float32) (bias : Float32) (taps : List (Nat × Nat)) :
    Float32 :=
  taps.foldl
    (fun acc (x, w) => acc + input.getD x 0.0 * filter.getD w 0.0) bias

end Convolution

namespace Kernel

/-- Reads an optional bias, which must hold one number per output channel. -/
def requireBias (bias? : Option Tensor) (outputs : Nat) :
    Except TensorError (Array Float32) :=
  match bias? with
  | none => .ok (Array.replicate outputs 0.0)
  | some bias => do
      let elements ← requireSingle "conv2d" bias
      requireShape "conv2d (bias)" (Shape.vector outputs) bias.shape
      return elements

def convolution (conv : Convolution) (input filter : Tensor) (bias? : Option Tensor)
    (output : Tensor) : Except TensorError Tensor := do
  let x ← requireSingle "conv2d" input
  let w ← requireSingle "conv2d" filter
  let _ ← requireSingle "conv2d" output
  let expected ← conv.outputShape input.shape filter.shape
  requireShape "conv2d (output)" expected output.shape
  match input.shape.dims, filter.shape.dims with
  | [_, channels, height, width], [outputs, depth, kernelHeight, kernelWidth] =>
      let bias ← requireBias bias? outputs
      let extents : Convolution.Extents :=
        ⟨channels, ⟨height, width⟩, depth, ⟨kernelHeight, kernelWidth⟩⟩
      return Tensor.tabulate .f32 output.shape fun
        | [n, o, row, column] =>
            Convolution.cell x w (bias.getD o 0.0)
              (conv.taps extents outputs n o row column)
        | _ => 0.0
  | _, _ => .error (.shapeMismatch "conv2d" input.shape filter.shape)

end Kernel
end NetImport
