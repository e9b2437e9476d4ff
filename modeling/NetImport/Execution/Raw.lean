import NetImport.Execution.Words

/-!
# Runs on storage

The tensors that a caller binds are compared by their types alone, so a run may be handed storage
that is not well-formed, and copy it.  The loop over the nodes is that of an engine, on storage
and for kernels that are given.
-/

namespace NetImport

open InPlace (Stop Storage)

/-- Storage by name, as a caller hands it to a run. -/
structure RawBindings where
  entries : List (String × Storage)

def RawBindings.get? (bindings : RawBindings) (name : String) : Option Storage :=
  (bindings.entries.find? fun entry => entry.1 = name).map Prod.snd

/-- Storage behind the result of a node; a constant belongs to the graph. -/
inductive RawBuffer where
  | empty
  | owned (storage : Storage)
  | shared (tensor : Tensor)

def RawBuffer.storage? : RawBuffer → Option Storage
  | .empty => none
  | .owned storage => some storage
  | .shared tensor => some tensor.storage

/-- Why a run has no result. -/
inductive RunStop where
  | refused (error : RunError)
  | fault
deriving DecidableEq, Repr

/-- The buffer of a node before the first run, with as many zeros as there are in words. -/
def RawBuffer.prepared (bits : Nat) (node : Node) : RawBuffer :=
  match node.constant?, node.results with
  | some tensor, _ => .shared tensor
  | none, type :: _ => .owned ⟨type.dtype, type.shape,
      Array.replicate (type.shape.countInWords bits) type.dtype.zero⟩
  | none, [] => .empty

structure RawOutput where
  outputs : List (String × Storage)
  metrics : Metrics

/-- What the kernel of a node leaves in its storage, from a look-up of the operands and what the
storage held before. -/
abbrev RawKernel :=
  NodeKind → (Handle → Except TensorError Storage) → Storage → Except Stop Storage

structure RawEngine where
  graph : VerifiedGraph
  profiling : Bool
  buffers : Array RawBuffer

namespace RawEngine

/-- An engine that has not run. -/
def prepare (bits : Nat) (graph : VerifiedGraph) (profiling : Bool) : RawEngine :=
  ⟨graph, profiling, graph.nodes.map (RawBuffer.prepared bits)⟩

/-- The bytes of all buffers, constants left out. -/
def allocatedBytes (engine : RawEngine) : Nat :=
  total (engine.buffers.toList.map fun buffer =>
    match buffer with
    | .owned storage => storage.type.sizeBytes
    | _ => 0)

/-- The storage bound to a placeholder, which must be of its type. -/
def boundStorage (bindings : RawBindings) (node : Node) : Except RunError Storage :=
  match bindings.get? node.name with
  | none => .error (.binding node.name "no tensor bound")
  | some storage =>
      if node.results.head? = some storage.type then .ok storage
      else
        let expected := (node.results.head?.map TensorType.text).getD ""
        .error (.binding node.name s!"expected {expected}, got {storage.type.text}")

def bindPlaceholders (bindings : RawBindings) (placeholders : List (Nat × Node))
    (buffers : Array RawBuffer) : Except RunError Unit × Array RawBuffer :=
  Engine.bindEach (boundStorage bindings) .owned placeholders buffers

def readOperand (buffers : Array RawBuffer) (position : Nat) (value : Handle) :
    Except TensorError Storage :=
  let found := if value.node < position then buffers[value.node]? else none
  match found.bind RawBuffer.storage? with
  | some storage => .ok storage
  | none => .error (.invalidArgument "read" s!"value {value.text} is not available")

/-- Executes the node at a position.  A save copies storage as it is. -/
def executeNode (kernel : RawKernel) (node : Node) (position : Nat)
    (buffers : Array RawBuffer) : Except Stop (Nat × Array RawBuffer) := do
  match node.kind with
  | .save input output =>
      let storage ← readOperand buffers position input
      if output < position then
        return (storage.type.sizeBytes, buffers.setIfInBounds output (.owned storage))
      else
        .error (.refused
          (.invalidArgument "save" s!"output %{output} is not defined before its save"))
  | kind =>
      match buffers[position]? with
      | some (.owned current) =>
          let storage ← kernel kind (readOperand buffers position) current
          return (storage.type.sizeBytes, buffers.setIfInBounds position (.owned storage))
      | _ =>
          .error (.refused
            (.invalidArgument kind.label s!"node '{node.name}' has no output buffer"))

def executeStep (kernel : RawKernel) (node : Node) (position : Nat)
    (buffers : Array RawBuffer) : Except RunStop (Nat × Array RawBuffer) :=
  (executeNode kernel node position buffers).mapError fun
    | .refused cause => .refused (.execution node.name cause)
    | .fault => .fault

def executeNodes (kernel : RawKernel) (profiling : Bool) (nodes : List (Node × Nat))
    (buffers : Array RawBuffer) (metrics : Metrics) :
    Except RunStop Metrics × Array RawBuffer :=
  Engine.executeEach (executeStep kernel) profiling nodes buffers metrics

def readOutputs (graph : VerifiedGraph) (buffers : Array RawBuffer) :
    List (String × Storage) :=
  graph.outputs.filterMap fun (position, node) =>
    (buffers[position]?.bind RawBuffer.storage?).map fun storage => (node.name, storage)

def run (kernel : RawKernel) (engine : RawEngine) (bindings : RawBindings) :
    Except RunStop RawOutput × RawEngine :=
  match bindPlaceholders bindings engine.graph.placeholders engine.buffers with
  | (.error error, buffers) => (.error (.refused error), { engine with buffers := buffers })
  | (.ok (), buffers) =>
      match executeNodes kernel engine.profiling engine.graph.nodes.toList.zipIdx buffers
          .empty with
      | (.error stop, buffers) => (.error stop, { engine with buffers := buffers })
      | (.ok metrics, buffers) =>
          (.ok ⟨readOutputs engine.graph buffers, metrics⟩, { engine with buffers := buffers })

/-- The engine after runs with some bindings, each of them refused or not. -/
def afterRuns (kernel : RawKernel) (engine : RawEngine) (earlier : List RawBindings) :
    RawEngine :=
  earlier.foldl (fun engine bindings => (engine.run kernel bindings).2) engine

end RawEngine

/-! ## Kernels on well-formed storage -/

def InPlace.Storage.tensor? (storage : Storage) : Option Tensor :=
  if hsize : storage.WellFormed then
    some ⟨storage.dtype, storage.shape, storage.data, hsize⟩
  else none

namespace RawKernel

def readTensor (read : Handle → Except TensorError Storage) (value : Handle) :
    Except TensorError Tensor := do
  let storage ← read value
  match storage.tensor? with
  | some tensor => return tensor
  | none => .error (.bufferSize storage.shape.count storage.data.size)

/-- The operands of a node that can be read are well-formed. -/
def operandsWellFormed (kind : NodeKind) (read : Handle → Except TensorError Storage) : Bool :=
  kind.operands.all fun value =>
    match read value with
    | .ok storage => decide storage.WellFormed
    | .error _ => true

/-- The kernels in words.  What they do to storage that is not well-formed is given by `rest`. -/
def inWords (bits : Nat) (rest : RawKernel) : RawKernel := fun kind read output =>
  match output.tensor? with
  | some tensor =>
      if operandsWellFormed kind read then
        Tensor.storage <$> Engine.applyKernelInWords bits kind (readTensor read) tensor
      else rest kind read output
  | none => rest kind read output

end RawKernel

/-! ## Tensors as storage -/

def Bindings.raw (bindings : Bindings) : RawBindings :=
  ⟨bindings.entries.map fun entry => (entry.1, entry.2.storage)⟩

/-- The tensors among the storage that is bound. -/
def RawBindings.tensors (bindings : RawBindings) : Bindings :=
  ⟨bindings.entries.filterMap fun entry =>
    entry.2.tensor?.map fun tensor => (entry.1, tensor)⟩

def RunOutput.raw (output : RunOutput) : RawOutput :=
  ⟨output.outputs.map fun entry => (entry.1, entry.2.storage), output.metrics⟩

/-- The outcome of a run as one on storage. -/
def RunOutput.outcome : Except RunError RunOutput → Except RunStop RawOutput
  | .ok output => .ok output.raw
  | .error error => .error (.refused error)

end NetImport
