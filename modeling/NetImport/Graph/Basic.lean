import NetImport.Graph.Typing

/-!
# Tensor graphs and their builders

A graph is a named sequence of typed nodes; since operands come before their
users, the order of creation is an order of execution.  A builder returns the
graph with one more node, or two in the case of an output, and the new value.
A checkpoint is a length that a graph can be cut back to.
-/

namespace NetImport

structure Graph where
  name : String
  nodes : Array Node

namespace Graph

def empty (name : String) : Graph := ⟨name, #[]⟩

def size (graph : Graph) : Nat := graph.nodes.size

def valueType (graph : Graph) (value : Handle) : Except GraphError TensorType :=
  Typing.operand graph.nodes value

def findVariable? (graph : Graph) (name : String) : Option Nat :=
  graph.nodes.findIdx? fun node => node.isVariable && node.name == name

/-- Appends a node that types against the nodes before it.  No two variables
share a name. -/
def append (graph : Graph) (name : String) (kind : NodeKind) :
    Except GraphError (Graph × Handle) := do
  let results ← Typing.infer kind graph.nodes
  if kind.isVariable && (graph.findVariable? name).isSome then
    .error (.duplicateName name)
  else
    return ({ graph with nodes := graph.nodes.push ⟨name, kind, results⟩ },
      .first graph.nodes.size)

def placeholder (graph : Graph) (name : String) (type : TensorType) :
    Except GraphError (Graph × Handle) :=
  graph.append name (.variable .placeholder type)

def constant (graph : Graph) (name : String) (tensor : Tensor) :
    Except GraphError (Graph × Handle) :=
  graph.append name (.variable (.constant tensor) tensor.type)

def convolution (graph : Graph) (name : String) (input filter : Handle)
    (bias : Option Handle) (params : Convolution) : Except GraphError (Graph × Handle) :=
  graph.append name (.convolution input filter bias params)

def pooling (graph : Graph) (name : String) (input : Handle) (params : Pooling) :
    Except GraphError (Graph × Handle) :=
  graph.append name (.pooling input params)

def matrixProduct (graph : Graph) (name : String) (lhs rhs : Handle) :
    Except GraphError (Graph × Handle) :=
  graph.append name (.matrixProduct lhs rhs)

def transpose (graph : Graph) (name : String) (input : Handle) (perm : List Nat) :
    Except GraphError (Graph × Handle) :=
  graph.append name (.transpose input perm)

def reshape (graph : Graph) (name : String) (input : Handle) (dims : List Nat) :
    Except GraphError (Graph × Handle) :=
  graph.append name (.reshape input dims)

def slice (graph : Graph) (name : String) (input : Handle) (start size : List Nat) :
    Except GraphError (Graph × Handle) :=
  graph.append name (.slice input start size)

def concat (graph : Graph) (name : String) (inputs : List Handle) (axis : Nat) :
    Except GraphError (Graph × Handle) :=
  graph.append name (.concat inputs axis)

def broadcast (graph : Graph) (name : String) (input : Handle) (axis : Nat)
    (dims : List Nat) : Except GraphError (Graph × Handle) :=
  graph.append name (.broadcast input axis dims)

def splat (graph : Graph) (name : String) (type : TensorType) (value : Float) :
    Except GraphError (Graph × Handle) :=
  graph.append name (.splat value type)

def isNaN (graph : Graph) (name : String) (input : Handle) :
    Except GraphError (Graph × Handle) :=
  graph.append name (.isNaN input)

def select (graph : Graph) (name : String) (cond onTrue onFalse : Handle) :
    Except GraphError (Graph × Handle) :=
  graph.append name (.select cond onTrue onFalse)

def clip (graph : Graph) (name : String) (input : Handle) (low high : Float) :
    Except GraphError (Graph × Handle) :=
  graph.append name (.clip input low high)

def arithmetic (graph : Graph) (name : String) (op : ArithmeticOp) (lhs rhs : Handle) :
    Except GraphError (Graph × Handle) :=
  graph.append name (.arithmetic op lhs rhs)

def unary (graph : Graph) (name : String) (op : UnaryOp) (input : Handle) :
    Except GraphError (Graph × Handle) :=
  graph.append name (.unary op input)

def softmax (graph : Graph) (name : String) (input : Handle) :
    Except GraphError (Graph × Handle) :=
  graph.append name (.softmax input)

def checkpoint (graph : Graph) : Nat := graph.nodes.size

/-- Drops every node from a checkpoint on; a checkpoint past the end drops none. -/
def rollback (graph : Graph) (checkpoint : Nat) : Graph :=
  { graph with nodes := graph.nodes.take checkpoint }

/-- A builder of one node on a graph in place: the result, and the graph that it
leaves.  A refused node leaves the graph as it is. -/
def inPlace (graph : Graph) (built : Except GraphError (Graph × Handle)) :
    Except GraphError Handle × Graph :=
  match built with
  | .ok (next, value) => (.ok value, next)
  | .error error => (.error error, graph)

/-- Appends, in place, an output variable of the type of a value and the save that
copies the value into it.  When the save is refused, the variable is dropped again.
The result is the variable. -/
def saveInPlace (graph : Graph) (name : String) (input : Handle) :
    Except GraphError Handle × Graph :=
  match graph.valueType input with
  | .error error => (.error error, graph)
  | .ok type =>
      match graph.append name (.variable .output type) with
      | .error error => (.error error, graph)
      | .ok (withVariable, output) =>
          match withVariable.append ("save_" ++ name) (.save input output.node) with
          | .error error => (.error error, withVariable.rollback graph.checkpoint)
          | .ok (withSave, _) => (.ok output, withSave)

/-- The same as a builder of the other form. -/
def save (graph : Graph) (name : String) (input : Handle) :
    Except GraphError (Graph × Handle) :=
  match graph.saveInPlace name input with
  | (.ok output, next) => .ok (next, output)
  | (.error error, _) => .error error

def variableNodes (graph : Graph) : List (Nat × Node) :=
  (graph.nodes.toList.zipIdx.map fun (node, i) => (i, node)).filter fun (_, node) =>
    node.isVariable

/-- The number of nodes that are no variables. -/
def countNodes (graph : Graph) : Nat :=
  (graph.nodes.filter fun node => !node.isVariable).size

def countVariables (graph : Graph) : Nat := graph.nodes.size - graph.countNodes

end Graph
end NetImport
