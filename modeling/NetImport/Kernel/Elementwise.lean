import NetImport.Kernel.Check
import NetImport.Kernel.Pooling
import NetImport.Numeric.Shortest

/-!
# Elementwise kernels

Activations, arithmetic, clipping and the test for numbers that are none act on
each element by itself; operands and result share one shape.
-/

namespace NetImport

inductive UnaryOp where
  | relu
  | sigmoid
  | tanh
deriving DecidableEq, Repr, Inhabited

inductive ArithmeticOp where
  | add
  | sub
  | mul
  | div
deriving DecidableEq, Repr, Inhabited

namespace UnaryOp

def label : UnaryOp → String
  | .relu => "relu"
  | .sigmoid => "sigmoid"
  | .tanh => "tanh"

def apply : UnaryOp → Float32 → Float32
  | .relu, x => greater x 0.0
  | .sigmoid, x => 1.0 / (1.0 + (-x).exp)
  | .tanh, x => x.tanh

end UnaryOp

namespace ArithmeticOp

def label : ArithmeticOp → String
  | .add => "add"
  | .sub => "sub"
  | .mul => "mul"
  | .div => "div"

def apply : ArithmeticOp → Float32 → Float32 → Float32
  | .add, x, y => x + y
  | .sub, x, y => x - y
  | .mul, x, y => x * y
  | .div, x, y => x / y

end ArithmeticOp

namespace DType

/-- The order of the element values; the boolean type has none. -/
def less : (dtype : DType) → dtype.Element → dtype.Element → Bool
  | .f32, x, y => decide (x < y)
  | .i8, x, y => decide (x < y)
  | .u8, x, y => decide (x < y)
  | .i32, x, y => decide (x < y)
  | .i64, x, y => decide (x < y)
  | .bool, _, _ => false

/-- The element itself when it lies between the bounds, else the bound it passes. -/
def clamp (dtype : DType) (low high x : dtype.Element) : dtype.Element :=
  if dtype.less x low then low else if dtype.less high x then high else x

end DType

namespace Kernel

def unary (op : UnaryOp) (input output : Tensor) : Except TensorError Tensor := do
  let x ← requireSingle op.label input
  let _ ← requireSingle op.label output
  requireShape op.label input.shape output.shape
  Tensor.ofArray .f32 output.shape (x.map op.apply)

def arithmetic (op : ArithmeticOp) (lhs rhs output : Tensor) : Except TensorError Tensor := do
  let x ← requireSingle op.label lhs
  let y ← requireSingle op.label rhs
  let _ ← requireSingle op.label output
  requireShape op.label lhs.shape rhs.shape
  requireShape op.label lhs.shape output.shape
  Tensor.ofArray .f32 output.shape (Array.zipWith op.apply x y)

/-- Clips every element to bounds that are converted to the element type first. -/
def clip (input : Tensor) (low high : Float) (output : Tensor) : Except TensorError Tensor := do
  requireSameDType "clip" input.dtype output.dtype
  requireShape "clip" input.shape output.shape
  if low > high then
    .error (.invalidArgument "clip"
      s!"min {Decimal.doubleText low} is greater than max {Decimal.doubleText high}")
  else if input.dtype = .bool then .error (.unsupportedDType "clip" .bool)
  else
    let dtype := input.dtype
    Tensor.ofArray dtype output.shape
      (input.data.map (dtype.clamp (dtype.ofFloat low) (dtype.ofFloat high)))

/-- Marks the elements that are no number. -/
def isNaN (input output : Tensor) : Except TensorError Tensor := do
  let x ← requireSingle "is_nan" input
  requireShape "is_nan" input.shape output.shape
  requireSameDType "is_nan" .bool output.dtype
  Tensor.ofArray .bool output.shape (x.map Float32.isNaN)

end Kernel
end NetImport
