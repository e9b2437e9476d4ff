import NetImport.Execution.Engine
import NetImport.Graph.Words

/-!
# Executing nodes in words

The kernel of a node with its arithmetic on extents in words.
-/

namespace NetImport
namespace Engine

open InPlace (Stop)

/-- Kernels without arithmetic on extents do the same as without words. -/
def applyKernelInWords (bits : Nat) (kind : NodeKind)
    (read : Handle → Except TensorError Tensor) (output : Tensor) : Except Stop Tensor := do
  match kind with
  | .convolution input filter bias params =>
      let bias ← (bias.mapM read : Except TensorError (Option Tensor))
      let x ← read input
      let w ← read filter
      Kernel.convolutionInWords bits params x w bias output
  | .pooling input params =>
      let x ← read input
      Kernel.poolingInWords bits params x output
  | .slice input start _ =>
      let x ← read input
      Kernel.sliceInWords bits x start output
  | .concat inputs axis =>
      let tensors ← (inputs.mapM read : Except TensorError (List Tensor))
      Kernel.concatInWords bits tensors axis output
  | .broadcast input axis _ =>
      let x ← read input
      Kernel.broadcastInWords bits x axis output
  | kind => applyKernel kind read output

end Engine
end NetImport
