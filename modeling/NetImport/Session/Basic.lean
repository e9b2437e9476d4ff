import NetImport.Config.TomlForm
import NetImport.Execution.Engine
import NetImport.Model.Files

/-!
# Sessions

A session takes a configuration through the stages of a run: its model becomes a
verified graph, the graph an engine, and the engine runs on the configured
inputs as often as is wanted.
-/

namespace NetImport

inductive SessionError where
  | config (cause : ConfigError)
  | load (cause : LoadError)
  | graph (cause : GraphError)
  | run (cause : RunError)
deriving DecidableEq, Repr

namespace SessionError

def message : SessionError → String
  | .config cause => s!"configuration error: {cause.message}"
  | .load cause => s!"model load failed: {cause.message}"
  | .graph cause => s!"graph verification failed: {cause.message}"
  | .run cause => cause.message

end SessionError

namespace Session

def loadModel (read : FileReader) (config : RunConfig) : Except SessionError VerifiedGraph := do
  let inputs ← config.inputTensors.mapError .config
  let graph := Graph.empty (LoadedModel.graphName config.predictNet)
  let (loaded, graph) := LoadedModel.ofFiles read config.predictNet config.initNet
    (inputs.map Prod.fst) (inputs.map fun input => input.2.type) graph
  let _ ← loaded.mapError SessionError.load
  graph.verify.mapError .graph

def prepare (config : RunConfig) (graph : VerifiedGraph) : Engine :=
  .prepare graph config.profiling

/-- Runs an engine once on the configured inputs. -/
def runConfigured (config : RunConfig) (engine : Engine) :
    Except SessionError RunOutput × Engine :=
  match config.bindings with
  | .error cause => (.error (.config cause), engine)
  | .ok bindings =>
      let (result, engine) := engine.run bindings
      (result.mapError .run, engine)

end Session
end NetImport
