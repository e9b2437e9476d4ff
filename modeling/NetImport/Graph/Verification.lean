import NetImport.Graph.Basic

/-!
# Verified graphs

Verification derives every type again, asks for distinct variable names and
wants every output variable written by exactly one save.  A verified graph
carries the fact, so nothing that runs it has to ask.
-/

namespace NetImport
namespace Graph

def checkNode (graph : Graph) (position : Nat) (node : Node) : Except GraphError Unit :=
  let before := graph.nodes.take position
  match Typing.infer node.kind before with
  | .error error => .error (.verification node.name error.message)
  | .ok results =>
      if results ≠ node.results then
        .error (.verification node.name "recorded result types do not match operands")
      else if node.isVariable &&
          before.any fun other => other.isVariable && other.name == node.name then
        .error (.duplicateName node.name)
      else .ok ()

def writers (graph : Graph) (output : Nat) : Nat :=
  (graph.nodes.filter fun node => node.savesInto? == some output).size

def checkOutput (graph : Graph) (position : Nat) (node : Node) : Except GraphError Unit :=
  let count := graph.writers position
  if node.isOutput && count != 1 then
    .error (.verification node.name s!"output written by {count} save nodes")
  else .ok ()

/-- All checks, node by node, and then those of the outputs. -/
def check (graph : Graph) : Except GraphError Unit := do
  graph.nodes.toList.zipIdx.forM fun (node, position) => graph.checkNode position node
  graph.nodes.toList.zipIdx.forM fun (node, position) => graph.checkOutput position node

end Graph

structure VerifiedGraph where
  graph : Graph
  verified : graph.check = .ok ()

namespace Graph

def verify (graph : Graph) : Except GraphError VerifiedGraph :=
  match h : graph.check with
  | .ok () => .ok ⟨graph, h⟩
  | .error error => .error error

end Graph

namespace VerifiedGraph

def nodes (verified : VerifiedGraph) : Array Node := verified.graph.nodes

/-- The placeholders with their positions, in order of creation. -/
def placeholders (verified : VerifiedGraph) : List (Nat × Node) :=
  verified.graph.variableNodes.filter fun (_, node) => node.isPlaceholder

/-- The output variables with their positions, in order of creation. -/
def outputs (verified : VerifiedGraph) : List (Nat × Node) :=
  verified.graph.variableNodes.filter fun (_, node) => node.isOutput

end VerifiedGraph
end NetImport
