import NetImport.Graph.Error
import NetImport.Kernel.Rearrangement

/-!
# Types of nodes

The result type of a node follows from its kind and the types of the nodes
before it.  Builders ask for it before they append a node, and verification asks
again over the nodes that precede each node, which also shows that operands are
defined before they are used.
-/

namespace NetImport
namespace Typing

/-- The type of a value among the nodes defined so far. -/
def operand (defined : Array Node) (value : Handle) : Except GraphError TensorType :=
  match defined[value.node]? with
  | none => .error (.unknownValue value)
  | some node =>
      match node.results[value.result]? with
      | none => .error (.unknownValue value)
      | some type => .ok type

def expectDType (op : String) (expected actual : DType) : Except GraphError Unit :=
  if expected = actual then .ok () else .error (.typeMismatch op expected actual)

def expectShape (op : String) (expected actual : Shape) : Except GraphError Unit :=
  if expected = actual then .ok ()
  else .error (.shapeMismatch op s!"expected {expected.text}, got {actual.text}")

def derived {α : Type} (result : Except TensorError α) : Except GraphError α :=
  match result with
  | .ok value => .ok value
  | .error error => .error (.ofTensorError error)

def variableType (role : VariableRole) (declared : TensorType) :
    Except GraphError TensorType :=
  match role with
  | .constant tensor =>
      if tensor.type = declared then .ok declared
      else .error (.shapeMismatch "constant"
        s!"payload is {tensor.type.text}, declared {declared.text}")
  | _ => .ok declared

def convolutionType (x w : TensorType) (bias : Option Handle) (params : Convolution)
    (type : Handle → Except GraphError TensorType) : Except GraphError TensorType := do
  expectDType "convolution" .f32 x.dtype
  expectDType "convolution" .f32 w.dtype
  let shape ← derived (params.outputShape x.shape w.shape)
  match bias with
  | none => return ⟨.f32, shape⟩
  | some value =>
      let b ← type value
      expectDType "convolution" .f32 b.dtype
      expectShape "convolution (bias)" (Shape.vector (w.dims.headD 0)) b.shape
      return ⟨.f32, shape⟩

def matrixProductType (a b : TensorType) : Except GraphError TensorType := do
  expectDType "matmul" .f32 a.dtype
  expectDType "matmul" .f32 b.dtype
  match a.shape.matrixProduct? b.shape with
  | some (m, _, n) => return ⟨.f32, Shape.matrix m n⟩
  | none => .error (.shapeMismatch "matmul" s!"{a.shape.text} x {b.shape.text}")

def reshapeType (x : TensorType) (dims : List Nat) : Except GraphError TensorType :=
  if Shape.count ⟨dims⟩ = x.shape.count then .ok ⟨x.dtype, ⟨dims⟩⟩
  else .error (.shapeMismatch "reshape"
    s!"cannot reshape {x.shape.text} into {Shape.text ⟨dims⟩}")

def sliceType (x : TensorType) (start size : List Nat) : Except GraphError TensorType :=
  if Kernel.boxFits start size x.dims then .ok ⟨x.dtype, ⟨size⟩⟩
  else .error (.invalidArgument "slice"
    s!"start {Kernel.listText start} size {Kernel.listText size} exceeds {x.shape.text}")

def concatType (types : List TensorType) (axis : Nat) : Except GraphError TensorType :=
  match types with
  | [] => .error (.invalidArgument "concat" "no inputs")
  | first :: others => do
      others.forM fun type => expectDType "concat" first.dtype type.dtype
      return ⟨first.dtype,
        ← derived (Kernel.concatShape axis (types.map TensorType.shape))⟩

def selectType (c a b : TensorType) : Except GraphError TensorType := do
  expectDType "select" .bool c.dtype
  expectDType "select" a.dtype b.dtype
  expectShape "select" c.shape a.shape
  expectShape "select" c.shape b.shape
  return a

def clipType (x : TensorType) (low high : Float) : Except GraphError TensorType :=
  if x.dtype = .bool then .error (.typeMismatch "clip" .f32 .bool)
  else if low > high then
    .error (.invalidArgument "clip"
      s!"min {Decimal.doubleText low} is greater than max {Decimal.doubleText high}")
  else .ok x

def arithmeticType (op : ArithmeticOp) (a b : TensorType) : Except GraphError TensorType := do
  expectDType op.label .f32 a.dtype
  expectDType op.label .f32 b.dtype
  expectShape op.label a.shape b.shape
  return a

def softmaxType (x : TensorType) : Except GraphError TensorType := do
  expectDType "softmax" .f32 x.dtype
  if x.shape.rank = 2 then return x
  else .error (.shapeMismatch "softmax" s!"expected a 2-D input, got {x.shape.text}")

def checkSave (defined : Array Node) (x : TensorType) (output : Nat) :
    Except GraphError Unit :=
  match defined[output]? with
  | none => .error (.unknownValue (.first output))
  | some target =>
      match target.kind with
      | .variable .output type => do
          expectDType "save" type.dtype x.dtype
          expectShape "save" type.shape x.shape
      | kind => .error (.invalidArgument "save" s!"target '{target.name}' is a {kind.label}")

def infer (kind : NodeKind) (defined : Array Node) : Except GraphError (List TensorType) := do
  let type := operand defined
  match kind with
  | .variable role declared => return [← variableType role declared]
  | .convolution input filter bias params =>
      return [← convolutionType (← type input) (← type filter) bias params type]
  | .pooling input params =>
      let x ← type input
      expectDType "pool" .f32 x.dtype
      return [⟨.f32, ← derived (params.outputShape x.shape)⟩]
  | .matrixProduct lhs rhs => return [← matrixProductType (← type lhs) (← type rhs)]
  | .transpose input perm =>
      let x ← type input
      return [⟨x.dtype, ← derived (Kernel.transposedShape x.shape perm)⟩]
  | .reshape input dims => return [← reshapeType (← type input) dims]
  | .slice input start size => return [← sliceType (← type input) start size]
  | .concat inputs axis => return [← concatType (← inputs.mapM type) axis]
  | .broadcast input axis dims =>
      let x ← type input
      derived (Kernel.checkBroadcast axis x.shape ⟨dims⟩)
      return [⟨x.dtype, ⟨dims⟩⟩]
  | .splat _ declared => return [declared]
  | .isNaN input =>
      let x ← type input
      expectDType "is_nan" .f32 x.dtype
      return [⟨.bool, x.shape⟩]
  | .select cond onTrue onFalse =>
      return [← selectType (← type cond) (← type onTrue) (← type onFalse)]
  | .clip input low high => return [← clipType (← type input) low high]
  | .arithmetic op lhs rhs => return [← arithmeticType op (← type lhs) (← type rhs)]
  | .unary op input =>
      let x ← type input
      expectDType op.label .f32 x.dtype
      return [x]
  | .softmax input => return [← softmaxType (← type input)]
  | .save input output =>
      checkSave defined (← type input) output
      return []

end Typing
end NetImport
