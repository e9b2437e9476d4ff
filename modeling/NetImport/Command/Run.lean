import NetImport.Command.Report
import NetImport.Graph.Summary

/-!
# The run command

A configured model is imported, its buffers are made, and it runs once on the
configured inputs.  Each stage prints what it has come to before the next one
begins.
-/

namespace NetImport
namespace RunCommand

def previewLength : Nat := 8

def elementText : (dtype : DType) → dtype.Element → String
  | .f32, x => Decimal.fixed 4 (Binary.ofSingle x)
  | .i8, x => toString x.toInt
  | .u8, x => toString x.toNat
  | .i32, x => toString x.toInt
  | .i64, x => toString x.toInt
  | .bool, x => if x then "true" else "false"

def preview (tensor : Tensor) : String :=
  let shown := (tensor.data.toList.take previewLength).map (elementText tensor.dtype)
  "[" ++ ", ".intercalate shown ++
    (if previewLength < tensor.data.size then ", ..." else "") ++ "]"

def outputLine (output : String × Tensor) : String :=
  s!"   {Layout.left 24 (Layout.truncate 24 output.1)} {output.2.type.text}  {preview output.2}"

def configLines (config : RunConfig) : List String :=
  ["  Config:", "   Predict net: " ++ config.predictNet,
    "   Init net:    " ++ config.initNet, s!"   Inputs:      {config.inputs.length}", ""]

def outputLines (outputs : List (String × Tensor)) : List String :=
  ["", "  Outputs:"] ++ outputs.map outputLine ++ [""]

abbrev Stage := ExceptT CommandError (StateM (List String))

def printLines (lines : List String) : Stage Unit :=
  modify (· ++ lines)

def attempt (result : Except SessionError α) : Stage α :=
  match result with
  | .ok value => pure value
  | .error cause => throw (.session cause)

/-- All stages.  The result is what the run measured. -/
def stages (read : FileReader) (path : String) : Stage Metrics := do
  printLines (Report.banner "               c2-import · Model Runner              ")
  let config ← attempt ((RunConfig.ofFile read path).mapError .config)
  printLines (configLines config)
  printLines ["  [1/3] Importing model..."]
  let graph ← attempt (Session.loadModel read config)
  printLines ["        " ++ graph.graph.summary, ""]
  printLines ["  [2/3] Allocating buffers..."]
  let engine := Session.prepare config graph
  printLines [s!"        {Decimal.kilobytes engine.allocatedBytes} KB allocated.", ""]
  printLines ["  [3/3] Running..."]
  let output ← attempt (Session.runConfigured config engine).1
  printLines (outputLines output.outputs)
  return output.metrics

/-- The lines that the command prints before its closing line, and the measures of
the run or the failure that it ends with. -/
def report (read : FileReader) (path : String) : List String × Except CommandError Metrics :=
  let (result, lines) := (stages read path).run.run []
  (lines, result)

def closingLine (metrics : Metrics) : String := "  " ++ metrics.summary

end RunCommand
end NetImport
