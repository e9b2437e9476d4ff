import NetImport.Graph.Basic
import NetImport.Numeric.FixedPlaces
import NetImport.Text.Layout

/-!
# Descriptions of graphs

A node is described on one line: name and kind in columns, then operands and
result types.  A graph is described by its counts, or by one line per node.
-/

namespace NetImport

def Node.summary (node : Node) : String :=
  let operands := ", ".intercalate (node.kind.operands.map Handle.text)
  let results :=
    if node.results.isEmpty then "()"
    else ", ".intercalate (node.results.map TensorType.text)
  s!"{Layout.left 22 node.name} {Layout.left 18 node.kind.fullLabel} ({operands}) -> {results}"

namespace Graph

/-- Adds one to the count of a label, which keeps the place of its first use. -/
def tally (label : String) : List (String × Nat) → List (String × Nat)
  | [] => [(label, 1)]
  | (other, count) :: rest =>
      if other == label then (other, count + 1) :: rest
      else (other, count) :: tally label rest

/-- How many nodes of each kind there are, variables left out, in order of first use. -/
def histogram (graph : Graph) : List (String × Nat) :=
  graph.nodes.toList.foldl
    (fun counts node => if node.isVariable then counts else tally node.kind.label counts) []

/-- The size of all constants. -/
def constantBytes (graph : Graph) : Nat :=
  total (graph.nodes.toList.filterMap fun node => node.constant?.map Tensor.sizeBytes)

def summary (graph : Graph) : String :=
  s!"Graph '{graph.name}': {graph.countNodes} nodes, {graph.countVariables} variables, " ++
    s!"{Decimal.kilobytes graph.constantBytes} KB constants"

/-- The summary and a line for every node. -/
def text (graph : Graph) : String :=
  graph.summary ++ "\n" ++ String.join (graph.nodes.toList.zipIdx.map fun (node, i) =>
    s!"  %{i}  {node.summary}\n")

end Graph
end NetImport
