import NetImport.Config.Input
import NetImport.Execution.Bindings

/-!
# Configurations of a run

A configuration names the two net files of a model and describes its inputs.
-/

namespace NetImport

structure RunConfig where
  predictNet : String
  initNet : String
  inputs : List InputSpec
  /-- Whether a run keeps a record of every node. -/
  profiling : Bool

namespace RunConfig

/-- The configuration that is used when nothing is said. -/
def default : RunConfig where
  predictNet := "./model/predict_net.pb"
  initNet := "./model/init_net.pb"
  inputs := []
  profiling := true

/-- The tensors of the inputs, in order, or the refusal of the first that fails. -/
def inputTensors (config : RunConfig) : Except ConfigError (List (String × Tensor)) :=
  config.inputs.mapM fun spec => do return (spec.name, ← spec.tensor)

def bindings (config : RunConfig) : Except ConfigError Bindings := do
  return .ofList (← config.inputTensors)

def sameValues (lhs rhs : RunConfig) : Bool :=
  lhs.predictNet == rhs.predictNet && lhs.initNet == rhs.initNet &&
    lhs.profiling == rhs.profiling && lhs.inputs.length == rhs.inputs.length &&
    (List.zipWith InputSpec.sameValues lhs.inputs rhs.inputs).all id

end RunConfig
end NetImport
