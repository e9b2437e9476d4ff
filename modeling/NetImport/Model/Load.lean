import NetImport.Lowering.Dispatch
import NetImport.Model.Weights

/-!
# Importing models

A model is a predict net and an init net.  Its import appends to a graph: a
placeholder for each input of the caller, a constant for each weight, the nodes of
each operator, and a save for each output of the predict net.  When any of this
fails the graph is as it was before.
-/

namespace NetImport

/-- The outputs of an imported model, in the order of the net: names, and the output
variables of the graph. -/
structure LoadedModel where
  outputs : List (String × Handle)

namespace LoadedModel

def output? (model : LoadedModel) (name : String) : Option Handle :=
  (model.outputs.find? fun entry => entry.1 = name).map Prod.snd

def single (model : LoadedModel) : Except LoadError Handle :=
  match model.outputs with
  | [(_, value)] => .ok value
  | outputs => .error (.multipleOutputs outputs.length)

end LoadedModel

namespace Lowering

/-- How messages call an import where no operator is to blame. -/
def importLabel : String := "(loader)"

def addVariable (name : String)
    (add : Graph → Except GraphError (Graph × Handle)) : Lowering Unit := do
  bindName name (← append (.ofVariableError importLabel) add)

/-- A placeholder for an input of the caller, which no weight may name. -/
def addInput (weights : WeightTable) (entry : String × TensorType) : Lowering Unit := do
  if weights.contains entry.1 then throw (.nameConflict entry.1)
  addVariable entry.1 fun graph => graph.placeholder entry.1 entry.2

def addWeight (entry : String × Tensor) : Lowering Unit :=
  addVariable entry.1 fun graph => graph.constant entry.1 entry.2

def addOutput (name : String) : Lowering (String × Handle) := do
  let value ← resolve importLabel name
  let work ← get
  let (saved, graph) := work.graph.saveInPlace name value
  set { work with graph := graph }
  match saved with
  | .ok output => return (name, output)
  | .error error => throw (.ofVariableError importLabel error)

/-- All steps of an import. -/
def model (predict init : NetDefinition) (inputs : List (String × TensorType)) :
    Lowering LoadedModel := do
  let weights ← ofExcept (WeightTable.ofNet init)
  inputs.forM (addInput weights)
  weights.entries.forM addWeight
  predict.operators.forM operator
  return ⟨← predict.externalOutputs.mapM addOutput⟩

end Lowering

namespace LoadedModel

def load (predict init : NetDefinition) (names : List String) (types : List TensorType)
    (graph : Graph) : Except LoadError LoadedModel × Graph :=
  if names.length ≠ types.length then
    (.error (.malformedArgument Lowering.importLabel "inputs"
      s!"{names.length} names for {types.length} tensors"), graph)
  else
    let start : Workspace := ⟨graph, .empty⟩
    match (Lowering.model predict init (names.zip types)).run.run start with
    | (.ok loaded, work) => (.ok loaded, work.graph)
    | (.error error, work) => (.error error, work.graph.rollback graph.checkpoint)

end LoadedModel
end NetImport
