import NetImport.Execution.Bindings
import NetImport.Execution.Metrics
import NetImport.Graph.Verification
import NetImport.Kernel.MatrixProduct
import NetImport.Kernel.Pooling
import NetImport.Kernel.Rearrangement
import NetImport.Kernel.Softmax

/-!
# Running a verified graph

An engine holds one buffer per node.  A run puts the bound tensors into the
buffers of the placeholders, lets every other node write its buffer from those
of earlier nodes, in order of creation, and reads off the output variables.
Buffers stay for the next run, also those of a run that is refused half way.
-/

namespace NetImport

/-- Why a run is refused. -/
inductive RunError where
  | binding (placeholder detail : String)
  | execution (node : String) (cause : TensorError)
deriving DecidableEq, Repr

namespace RunError

def message : RunError → String
  | .binding placeholder detail => s!"binding error for '{placeholder}': {detail}"
  | .execution node cause => s!"execution error in node '{node}': {cause.message}"

end RunError

/-- The storage behind the result of a node. -/
inductive Buffer where
  /-- The node has no result. -/
  | empty
  /-- Written by the node, or by the caller in the case of a placeholder. -/
  | owned (tensor : Tensor)
  /-- A constant, which belongs to the graph. -/
  | shared (tensor : Tensor)

namespace Buffer

def tensor? : Buffer → Option Tensor
  | .empty => none
  | .owned tensor => some tensor
  | .shared tensor => some tensor

def ownedBytes : Buffer → Nat
  | .owned tensor => tensor.sizeBytes
  | _ => 0

/-- The buffer of a node before the first run. -/
def prepared (node : Node) : Buffer :=
  match node.constant?, node.results with
  | some tensor, _ => .shared tensor
  | none, type :: _ => .owned (Tensor.zeros type.dtype type.shape)
  | none, [] => .empty

end Buffer

structure Engine where
  graph : VerifiedGraph
  profiling : Bool
  buffers : Array Buffer

/-- The output variables after a run, in order of creation. -/
structure RunOutput where
  outputs : List (String × Tensor)
  metrics : Metrics

namespace Engine

/-- An engine that has not run. -/
def prepare (graph : VerifiedGraph) (profiling : Bool) : Engine :=
  ⟨graph, profiling, graph.nodes.map Buffer.prepared⟩

/-- The bytes of all buffers, constants left out. -/
def allocatedBytes (engine : Engine) : Nat :=
  total (engine.buffers.toList.map Buffer.ownedBytes)

/-- The tensor bound to a placeholder, which must be of its type. -/
def boundTensor (bindings : Bindings) (node : Node) : Except RunError Tensor :=
  match bindings.get? node.name with
  | none => .error (.binding node.name "no tensor bound")
  | some tensor =>
      if node.results.head? = some tensor.type then .ok tensor
      else
        let expected := (node.results.head?.map TensorType.text).getD ""
        .error (.binding node.name s!"expected {expected}, got {tensor.type.text}")

/-- Gives the placeholders their buffers, up to the first one that is given none. -/
def bindEach {Given Slot : Type} (given : Node → Except RunError Given) (own : Given → Slot) :
    List (Nat × Node) → Array Slot → Except RunError Unit × Array Slot
  | [], buffers => (.ok (), buffers)
  | (position, node) :: placeholders, buffers =>
      match given node with
      | .error error => (.error error, buffers)
      | .ok found =>
          bindEach given own placeholders (buffers.setIfInBounds position (own found))

/-- Puts the bound tensors into the buffers of the placeholders. -/
def bindPlaceholders (bindings : Bindings) (placeholders : List (Nat × Node))
    (buffers : Array Buffer) : Except RunError Unit × Array Buffer :=
  bindEach (boundTensor bindings) .owned placeholders buffers

def readOperand (buffers : Array Buffer) (position : Nat) (value : Handle) :
    Except TensorError Tensor :=
  let found := if value.node < position then buffers[value.node]? else none
  match found.bind Buffer.tensor? with
  | some tensor => .ok tensor
  | none => .error (.invalidArgument "read" s!"value {value.text} is not available")

/-- Writes the result of a node over `output`, from operands that `read` looks up. -/
def applyKernel (kind : NodeKind) (read : Handle → Except TensorError Tensor)
    (output : Tensor) : Except TensorError Tensor := do
  match kind with
  | .convolution input filter bias params =>
      let bias ← bias.mapM read
      Kernel.convolution params (← read input) (← read filter) bias output
  | .pooling input params => Kernel.pooling params (← read input) output
  | .matrixProduct lhs rhs => Kernel.matrixProduct (← read lhs) (← read rhs) output
  | .transpose input perm => Kernel.transpose (← read input) perm output
  | .reshape input _ => Kernel.reshape (← read input) output
  | .slice input start _ => Kernel.slice (← read input) start output
  | .concat inputs axis => Kernel.concat (← inputs.mapM read) axis output
  | .broadcast input axis _ => Kernel.broadcast (← read input) axis output
  | .splat value _ => return Kernel.splat value output
  | .isNaN input => Kernel.isNaN (← read input) output
  | .select cond onTrue onFalse =>
      Kernel.select (← read cond) (← read onTrue) (← read onFalse) output
  | .clip input low high => Kernel.clip (← read input) low high output
  | .arithmetic op lhs rhs => Kernel.arithmetic op (← read lhs) (← read rhs) output
  | .unary op input => Kernel.unary op (← read input) output
  | .softmax input => Kernel.softmax (← read input) output
  | .variable .. => return output
  | .save .. => return output

/-- Executes the node at a position.  The result is the number of bytes written
and the buffers afterwards. -/
def executeNode (node : Node) (position : Nat) (buffers : Array Buffer) :
    Except TensorError (Nat × Array Buffer) := do
  match node.kind with
  | .save input output =>
      let tensor ← readOperand buffers position input
      if output < position then
        return (tensor.sizeBytes, buffers.setIfInBounds output (.owned tensor))
      else
        .error (.invalidArgument "save" s!"output %{output} is not defined before its save")
  | kind =>
      match buffers[position]? with
      | some (.owned current) =>
          let tensor ← applyKernel kind (readOperand buffers position) current
          return (tensor.sizeBytes, buffers.setIfInBounds position (.owned tensor))
      | _ =>
          .error (.invalidArgument kind.label s!"node '{node.name}' has no output buffer")

/-- Takes steps for nodes in order, variables passed over, up to the first failure. -/
def executeEach {Slot Failure : Type}
    (step : Node → Nat → Array Slot → Except Failure (Nat × Array Slot)) (profiling : Bool) :
    List (Node × Nat) → Array Slot → Metrics → Except Failure Metrics × Array Slot
  | [], buffers, metrics => (.ok metrics, buffers)
  | (node, position) :: nodes, buffers, metrics =>
      if node.isVariable then executeEach step profiling nodes buffers metrics
      else
        match step node position buffers with
        | .error failure => (.error failure, buffers)
        | .ok (bytes, buffers) =>
            executeEach step profiling nodes buffers
              (metrics.record ⟨node.name, node.kind.label, 0, bytes⟩ profiling)

/-- The execution of a node as a step of a run. -/
def executeStep (node : Node) (position : Nat) (buffers : Array Buffer) :
    Except RunError (Nat × Array Buffer) :=
  (executeNode node position buffers).mapError (.execution node.name)

def executeNodes (profiling : Bool) (nodes : List (Node × Nat)) (buffers : Array Buffer)
    (metrics : Metrics) : Except RunError Metrics × Array Buffer :=
  executeEach executeStep profiling nodes buffers metrics

def readOutputs (graph : VerifiedGraph) (buffers : Array Buffer) : List (String × Tensor) :=
  graph.outputs.filterMap fun (position, node) =>
    (buffers[position]?.bind Buffer.tensor?).map fun tensor => (node.name, tensor)

/-- Runs the graph once.  Times are left at zero; who measures a run adds them. -/
def run (engine : Engine) (bindings : Bindings) : Except RunError RunOutput × Engine :=
  match bindPlaceholders bindings engine.graph.placeholders engine.buffers with
  | (.error error, buffers) => (.error error, { engine with buffers := buffers })
  | (.ok (), buffers) =>
      match executeNodes engine.profiling engine.graph.nodes.toList.zipIdx buffers .empty with
      | (.error error, buffers) => (.error error, { engine with buffers := buffers })
      | (.ok metrics, buffers) =>
          (.ok ⟨readOutputs engine.graph buffers, metrics⟩, { engine with buffers := buffers })

end Engine
end NetImport
