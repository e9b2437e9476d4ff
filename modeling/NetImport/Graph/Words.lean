import NetImport.Graph.Basic
import NetImport.Kernel.Words

/-!
# Typing in words

The result type of a node, with the arithmetic on extents in words.  A sum that is cut may let
a broadcast begin behind the end of its target, which is a fault.
-/

namespace NetImport
namespace Typing

/-- The end of a derivation without a result. -/
inductive Stop where
  | refused (reason : GraphError)
  | fault
deriving DecidableEq, Repr

instance : MonadLift (Except GraphError) (Except Stop) where
  monadLift
    | .ok value => .ok value
    | .error reason => .error (.refused reason)

/-- The derivation of a shape as part of that of a type. -/
instance : MonadLift (Except InPlace.Stop) (Except Stop) where
  monadLift
    | .ok value => .ok value
    | .error (.refused reason) => .error (.refused (.ofTensorError reason))
    | .error .fault => .error .fault

def convolutionTypeInWords (bits : Nat) (x w : TensorType) (bias : Option Handle)
    (params : Convolution) (type : Handle → Except GraphError TensorType) :
    Except GraphError TensorType := do
  expectDType "convolution" .f32 x.dtype
  expectDType "convolution" .f32 w.dtype
  let shape ← derived (params.outputShapeInWords bits x.shape w.shape)
  match bias with
  | none => return ⟨.f32, shape⟩
  | some value =>
      let b ← type value
      expectDType "convolution" .f32 b.dtype
      expectShape "convolution (bias)" (Shape.vector (w.dims.headD 0)) b.shape
      return ⟨.f32, shape⟩

def reshapeTypeInWords (bits : Nat) (x : TensorType) (dims : List Nat) :
    Except GraphError TensorType :=
  if Shape.countInWords bits ⟨dims⟩ = x.shape.countInWords bits then .ok ⟨x.dtype, ⟨dims⟩⟩
  else .error (.shapeMismatch "reshape"
    s!"cannot reshape {x.shape.text} into {Shape.text ⟨dims⟩}")

def sliceTypeInWords (bits : Nat) (x : TensorType) (start size : List Nat) :
    Except GraphError TensorType :=
  if Kernel.boxFitsInWords bits start size x.dims then .ok ⟨x.dtype, ⟨size⟩⟩
  else .error (.invalidArgument "slice"
    s!"start {Kernel.listText start} size {Kernel.listText size} exceeds {x.shape.text}")

def concatTypeInWords (bits : Nat) (types : List TensorType) (axis : Nat) :
    Except GraphError TensorType :=
  match types with
  | [] => .error (.invalidArgument "concat" "no inputs")
  | first :: others => do
      others.forM fun type => expectDType "concat" first.dtype type.dtype
      return ⟨first.dtype,
        ← derived (Kernel.concatShapeInWords bits axis (types.map TensorType.shape))⟩

/-- Nodes without arithmetic on extents are typed as without words. -/
def inferInWords (bits : Nat) (kind : NodeKind) (defined : Array Node) :
    Except Stop (List TensorType) := do
  let type := operand defined
  match kind with
  | .convolution input filter bias params =>
      let x ← type input
      let w ← type filter
      return [← convolutionTypeInWords bits x w bias params type]
  | .pooling input params =>
      let x ← type input
      expectDType "pool" .f32 x.dtype
      return [⟨.f32, ← derived (params.outputShapeInWords bits x.shape)⟩]
  | .reshape input dims =>
      let x ← type input
      return [← reshapeTypeInWords bits x dims]
  | .slice input start size =>
      let x ← type input
      return [← sliceTypeInWords bits x start size]
  | .concat inputs axis =>
      let types ← (inputs.mapM type : Except GraphError (List TensorType))
      return [← concatTypeInWords bits types axis]
  | .broadcast input axis dims =>
      let x ← type input
      Kernel.checkBroadcastInWords bits axis x.shape ⟨dims⟩
      return [⟨x.dtype, ⟨dims⟩⟩]
  | kind => infer kind defined

end Typing

/-- Appends a node that types in words against the nodes before it. -/
def Graph.appendInWords (bits : Nat) (graph : Graph) (name : String) (kind : NodeKind) :
    Except Typing.Stop (Graph × Handle) := do
  let results ← Typing.inferInWords bits kind graph.nodes
  if kind.isVariable && (graph.findVariable? name).isSome then
    .error (.refused (.duplicateName name))
  else
    return ({ graph with nodes := graph.nodes.push ⟨name, kind, results⟩ },
      .first graph.nodes.size)

/-- The sums and products that a node and its kernel come to are words. -/
def NodeKind.FitsWords (bits : Nat) (kind : NodeKind) (defined : Array Node) : Prop :=
  match kind with
  | .convolution input filter _ params => ∀ x w,
      Typing.operand defined input = .ok x → Typing.operand defined filter = .ok w →
        params.FitsWords bits x.shape w.shape
  | .pooling input params => ∀ x, Typing.operand defined input = .ok x →
      params.FitsWords bits x.shape
  | .reshape input dims => ∀ x, Typing.operand defined input = .ok x →
      x.shape.count < twoPow bits ∧ Shape.count ⟨dims⟩ < twoPow bits
  | .slice input start size => ∀ x, Typing.operand defined input = .ok x →
      Kernel.SliceFitsWords bits x.shape start size
  | .concat inputs axis => ∀ types, inputs.mapM (Typing.operand defined) = .ok types →
      Kernel.ConcatFitsWords bits axis (types.map TensorType.shape)
  | .broadcast input axis _ => ∀ x, Typing.operand defined input = .ok x →
      axis + x.shape.rank < twoPow bits
  | _ => True

/-- The sums and products of all nodes are words, and so are the sizes of their results. -/
def Graph.FitsWords (bits : Nat) (graph : Graph) : Prop :=
  ∀ node ∈ graph.nodes, node.kind.FitsWords bits graph.nodes ∧
    ∀ type ∈ node.results, type.sizeBytes < twoPow bits

end NetImport
