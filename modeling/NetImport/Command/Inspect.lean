import NetImport.Command.InputArgument
import NetImport.Command.Report
import NetImport.Graph.Summary

/-!
# The inspect command

A model is imported for inputs of given types, and its graph is described: its
outputs, how many nodes there are of each kind and, if wanted, every node.
-/

namespace NetImport

structure Inspection where
  predictNet : String
  initNet : String
  inputs : List InputArgument
  /-- Whether every node is listed. -/
  showNodes : Bool

namespace Inspection

def load (read : FileReader) (inspection : Inspection) :
    Except CommandError (LoadedModel × VerifiedGraph) := do
  let graph := Graph.empty (LoadedModel.graphName inspection.predictNet)
  let (loaded, graph) := LoadedModel.ofFiles read inspection.predictNet inspection.initNet
    (inspection.inputs.map InputArgument.name) (inspection.inputs.map InputArgument.type) graph
  let model ← loaded.mapError (CommandError.importing inspection.predictNet)
  return (model, ← graph.verify.mapError CommandError.verification)

def outputLine (graph : Graph) (name : String) (value : Handle) : String :=
  let type := (graph.valueType value).toOption.elim "" TensorType.text
  s!"   {Layout.left 30 (Layout.truncate 30 name)} {type}"

def countLine (label count : String) : String :=
  s!"  {Layout.left 14 label} {Layout.right 6 count}"

def histogramLines (graph : Graph) : List String :=
  [countLine "Kind" "Count", "  " ++ Report.rule 21] ++
    (graph.histogram.map fun (label, count) => countLine label (toString count)) ++ [""]

def nodeLines (graph : Graph) : List String :=
  ["  " ++ Layout.left 5 "Id" ++ " Node", "  " ++ Report.rule 82] ++
    (graph.nodes.toList.zipIdx.map fun (node, position) =>
      s!"  %{Layout.left 4 (toString position)} {node.summary}") ++
    [""]

def describe (showNodes : Bool) (model : LoadedModel) (graph : Graph) : List String :=
  ["  " ++ graph.summary, "", "  Outputs:"] ++
    (model.outputs.map fun (name, value) => outputLine graph name value) ++ [""] ++
    histogramLines graph ++ (if showNodes then nodeLines graph else [])

def report (read : FileReader) (inspection : Inspection) :
    List String × Except CommandError Unit :=
  let opening := Report.banner "              c2-import · Model Inspector            "
  match inspection.load read with
  | .error error => (opening, .error error)
  | .ok (model, verified) =>
      (opening ++ describe inspection.showNodes model verified.graph, .ok ())

end Inspection
end NetImport
