import NetImport.Kernel.Check
import NetImport.Kernel.Window

/-!
# Pooling

Each output cell reduces the window cells that lie inside its input plane, row
by row.  A window may begin exactly at the right edge and is empty then; one
that begins beyond it is not a range of columns, and pooling stops there.
-/

namespace NetImport

inductive PoolMode where
  | max
  /-- The mean of the cells inside the input; cells in the padding do not count. -/
  | average
deriving DecidableEq, Repr, Inhabited

structure Pooling where
  mode : PoolMode
  window : Window
deriving DecidableEq, Repr, Inhabited

/-- The greater of two numbers; an operand that is no number is passed over. -/
def greater (x y : Float32) : Float32 :=
  if x.isNaN then y else if y.isNaN then x else if x < y then y else x

/-- The least number of all, below every finite one. -/
def minusInfinity : Float32 := Binary.toSingle (.infinite true)

namespace Pooling

def outputShape (pool : Pooling) (input : Shape) : Except TensorError Shape :=
  match input.dims with
  | [batch, channels, height, width] =>
      match pool.window.output? ⟨height, width⟩ with
      | some out => .ok ⟨[batch, channels, out.height, out.width]⟩
      | none =>
          .error (.invalidArgument "pool2d"
            (s!"kernel {pool.window.kernel.text} with stride {pool.window.stride.text} " ++
              s!"does not fit input {input.text}"))
  | _ => .error (.invalidArgument "pool2d" s!"expected an NCHW input, got {input.text}")

/-- The range of places that a window covers on one axis, cut to the input:
first place and place after the last. -/
def span (kernel start padding extent : Nat) : Nat × Nat :=
  (start - padding, min (start + kernel - padding) extent)

/-- The places of a range, which must not end before it begins. -/
def places (range : Nat × Nat) : Except TensorError (List Nat) :=
  if range.1 ≤ range.2 then .ok (List.range' range.1 (range.2 - range.1))
  else .error .windowPastEdge

/-- The cells of one window: rows that the window misses hold no columns. -/
def cells (plane : Nat → Nat → Float32) (rows columns : Nat × Nat) :
    Except TensorError (List Float32) := do
  let lines ← (List.range' rows.1 (rows.2 - rows.1)).mapM fun row => do
    return (← places columns).map (plane row)
  return lines.flatten

def reduce : PoolMode → List Float32 → Float32
  | .max, values => values.foldl greater minusInfinity
  | .average, values =>
      if values.isEmpty then 0.0
      else values.foldl (· + ·) 0.0 / Binary.singleOfInt values.length

def cell (pool : Pooling) (plane : Nat → Nat → Float32) (input : Plane)
    (row column : Nat) : Except TensorError Float32 := do
  let rows := span pool.window.kernel.height (row * pool.window.stride.height)
    pool.window.padding.top input.height
  let columns := span pool.window.kernel.width (column * pool.window.stride.width)
    pool.window.padding.left input.width
  return reduce pool.mode (← cells plane rows columns)

end Pooling

namespace Kernel

def pooling (pool : Pooling) (input output : Tensor) : Except TensorError Tensor := do
  let x ← requireSingle "pool2d" input
  let _ ← requireSingle "pool2d" output
  let expected ← pool.outputShape input.shape
  requireShape "pool2d (output)" expected output.shape
  match input.shape.dims with
  | [_, channels, height, width] =>
      let values ← output.shape.coordinates.mapM fun
        | [n, channel, row, column] =>
            let plane (r q : Nat) : Float32 :=
              x.getD (((n * channels + channel) * height + r) * width + q) 0.0
            pool.cell plane ⟨height, width⟩ row column
        | _ => .ok 0.0
      Tensor.ofArray .f32 output.shape values.toArray
  | _ => .error (.invalidArgument "pool2d"
      s!"expected an NCHW input, got {input.shape.text}")

end Kernel
end NetImport
