import NetImport.Kernel.Convolution
import NetImport.Kernel.Elementwise

/-!
# Nodes of a tensor graph

Nodes stand in the order of their creation and refer to results of earlier
nodes by position.  A node of any kind but `save` produces one value; a save
copies a value into an output variable.
-/

namespace NetImport

structure Handle where
  node : Nat
  result : Nat
deriving DecidableEq, Repr, Inhabited

namespace Handle

/-- The first result of a node. -/
def first (node : Nat) : Handle := ⟨node, 0⟩

def text (handle : Handle) : String :=
  if handle.result = 0 then s!"%{handle.node}" else s!"%{handle.node}.{handle.result}"

end Handle

inductive VariableRole where
  /-- Bound to a tensor of the caller when the graph runs. -/
  | placeholder
  /-- A fixed tensor. -/
  | constant (tensor : Tensor)
  /-- Written by a save. -/
  | output

inductive NodeKind where
  | variable (role : VariableRole) (type : TensorType)
  | convolution (input filter : Handle) (bias : Option Handle) (params : Convolution)
  | pooling (input : Handle) (params : Pooling)
  | matrixProduct (lhs rhs : Handle)
  | transpose (input : Handle) (perm : List Nat)
  | reshape (input : Handle) (dims : List Nat)
  | slice (input : Handle) (start size : List Nat)
  | concat (inputs : List Handle) (axis : Nat)
  | broadcast (input : Handle) (axis : Nat) (dims : List Nat)
  | splat (value : Float) (type : TensorType)
  | isNaN (input : Handle)
  | select (cond onTrue onFalse : Handle)
  | clip (input : Handle) (low high : Float)
  | arithmetic (op : ArithmeticOp) (lhs rhs : Handle)
  | unary (op : UnaryOp) (input : Handle)
  | softmax (input : Handle)
  /-- Copies a value into the output variable at a node position. -/
  | save (input : Handle) (output : Nat)

namespace VariableRole

def label : VariableRole → String
  | .placeholder => "placeholder"
  | .constant _ => "constant"
  | .output => "output"

end VariableRole

namespace NodeKind

def label : NodeKind → String
  | .variable .. => "Variable"
  | .convolution .. => "Convolution"
  | .pooling .. => "Pool"
  | .matrixProduct .. => "MatMul"
  | .transpose .. => "Transpose"
  | .reshape .. => "Reshape"
  | .slice .. => "Slice"
  | .concat .. => "Concat"
  | .broadcast .. => "Broadcast"
  | .splat .. => "Splat"
  | .isNaN .. => "IsNaN"
  | .select .. => "Select"
  | .clip .. => "Clip"
  | .arithmetic .. => "Arithmetic"
  | .unary .. => "Unary"
  | .softmax .. => "Softmax"
  | .save .. => "Save"

def fullLabel : NodeKind → String
  | .variable role _ => s!"Variable<{role.label}>"
  | .arithmetic op _ _ => s!"Arithmetic<{op.label}>"
  | .unary op _ => s!"Unary<{op.label}>"
  | kind => kind.label

/-- The values that a node reads, in order.  The variable that a save writes is
not among them. -/
def operands : NodeKind → List Handle
  | .variable .. => []
  | .splat .. => []
  | .convolution input filter bias _ => input :: filter :: bias.toList
  | .matrixProduct lhs rhs => [lhs, rhs]
  | .arithmetic _ lhs rhs => [lhs, rhs]
  | .concat inputs _ => inputs
  | .select cond onTrue onFalse => [cond, onTrue, onFalse]
  | .pooling input _ => [input]
  | .transpose input _ => [input]
  | .reshape input _ => [input]
  | .slice input _ _ => [input]
  | .broadcast input _ _ => [input]
  | .isNaN input => [input]
  | .clip input _ _ => [input]
  | .unary _ input => [input]
  | .softmax input => [input]
  | .save input _ => [input]

def isVariable : NodeKind → Bool
  | .variable .. => true
  | _ => false

end NodeKind

structure Node where
  name : String
  kind : NodeKind
  results : List TensorType

namespace Node

def role? (node : Node) : Option VariableRole :=
  match node.kind with
  | .variable role _ => some role
  | _ => none

def isVariable (node : Node) : Bool := node.kind.isVariable

def isPlaceholder (node : Node) : Bool :=
  match node.role? with
  | some .placeholder => true
  | _ => false

def isOutput (node : Node) : Bool :=
  match node.role? with
  | some .output => true
  | _ => false

def constant? (node : Node) : Option Tensor :=
  match node.role? with
  | some (.constant tensor) => some tensor
  | _ => none

def savesInto? (node : Node) : Option Nat :=
  match node.kind with
  | .save _ output => some output
  | _ => none

end Node
end NetImport
