import NetImport.Execution.Words
import NetImport.Proofs.Execution.Kernels
import NetImport.Proofs.Graph.Derivations
import NetImport.Proofs.Kernel.WindowWords
import NetImport.Proofs.Kernel.Words

/-!
# Nodes in words

Where the sums and products that a node comes to are words, it is typed in words as without, and
its kernel leaves the same storage.
-/

namespace NetImport

variable {bits : Nat} {defined : Array Node}

/-! ## Typing -/

namespace Typing

theorem convolutionTypeInWords_eq {x w : TensorType} {params : Convolution}
    (bias : Option Handle) (type : Handle → Except GraphError TensorType)
    (hwords : params.FitsWords bits x.shape w.shape) :
    convolutionTypeInWords bits x w bias params type = convolutionType x w bias params type := by
  rw [convolutionTypeInWords, Convolution.outputShapeInWords_eq hwords]
  rfl

theorem reshapeTypeInWords_eq {x : TensorType} {dims : List Nat}
    (hinput : x.shape.count < twoPow bits) (hdims : Shape.count ⟨dims⟩ < twoPow bits) :
    reshapeTypeInWords bits x dims = reshapeType x dims := by
  rw [reshapeTypeInWords, reshapeType, Shape.countInWords_eq_hold, Shape.countInWords_eq_hold,
    Word.hold_eq hinput, Word.hold_eq hdims]

theorem concatTypeInWords_eq {types : List TensorType} {axis : Nat}
    (hwords : Kernel.ConcatFitsWords bits axis (types.map TensorType.shape)) :
    concatTypeInWords bits types axis = concatType types axis := by
  cases types with
  | nil => rfl
  | cons first others =>
      rw [concatTypeInWords, concatType, Kernel.concatShapeInWords_eq hwords]

theorem liftM_bind_eq {α β : Type} {x : Except GraphError α} {f : α → Except Stop β}
    {g : α → Except GraphError β} (hsteps : ∀ a, x = .ok a → f a = liftM (g a)) :
    ((liftM x : Except Stop α) >>= f) = liftM (x >>= g) := by
  cases x with
  | error reason => rfl
  | ok a => exact hsteps a rfl

/-- A node is typed in words as without, where its sums and products are words. -/
theorem inferInWords_eq {kind : NodeKind} (hwords : kind.FitsWords bits defined) :
    inferInWords bits kind defined = liftM (infer kind defined) := by
  cases kind with
  | convolution input filter bias params =>
      refine liftM_bind_eq fun x hx => liftM_bind_eq fun w hw => ?_
      rw [convolutionTypeInWords_eq bias _ (hwords x w hx hw)]
      exact liftM_bind_eq fun type _ => rfl
  | pooling input params =>
      refine liftM_bind_eq fun x hx => liftM_bind_eq fun _ _ => ?_
      rw [Pooling.outputShapeInWords_eq (hwords x hx)]
      exact liftM_bind_eq fun shape _ => rfl
  | reshape input dims =>
      refine liftM_bind_eq fun x hx => ?_
      obtain ⟨hinput, hdims⟩ := hwords x hx
      rw [reshapeTypeInWords_eq hinput hdims]
      exact liftM_bind_eq fun type _ => rfl
  | slice input start size =>
      refine liftM_bind_eq fun x hx => ?_
      rw [sliceTypeInWords, Kernel.boxFitsInWords_eq (hwords x hx).1]
      exact liftM_bind_eq fun type _ => rfl
  | concat inputs axis =>
      refine liftM_bind_eq fun types htypes => ?_
      rw [concatTypeInWords_eq (hwords types htypes)]
      exact liftM_bind_eq fun type _ => rfl
  | broadcast input axis dims =>
      refine liftM_bind_eq fun x hx => ?_
      rw [Kernel.checkBroadcastInWords_eq (hwords x hx), liftM_shape]
      exact liftM_bind_eq fun _ _ => rfl
  | _ => rfl

end Typing

/-! ## Kernels -/

namespace Engine

open InPlace (Stop liftM_bind_eq)

variable {read : Handle → Except TensorError Tensor}

/-- The kernel of a node does the same in words as without, where the sums and products of the
node are words. -/
theorem applyKernelInWords_eq {kind : NodeKind} {output : Tensor}
    (hread : ∀ value ∈ kind.operands, ∀ tensor, read value = .ok tensor →
      Typing.operand defined value = .ok tensor.type)
    (hdims : ∀ dims, kind.declaredDims? = some dims → output.shape = ⟨dims⟩)
    (hwords : kind.FitsWords bits defined) :
    applyKernelInWords bits kind read output = liftM (applyKernel kind read output) := by
  cases kind with
  | convolution input filter bias params =>
      refine liftM_bind_eq fun starts _ => liftM_bind_eq fun x hx => liftM_bind_eq fun w hw => ?_
      rw [Kernel.convolutionInWords_eq starts output
        (hwords x.type w.type (hread input (by simp [NodeKind.operands]) x hx)
          (hread filter (by simp [NodeKind.operands]) w hw))]
  | pooling input params =>
      refine liftM_bind_eq fun x hx => ?_
      rw [Kernel.poolingInWords_eq output
        (hwords x.type (hread input (by simp [NodeKind.operands]) x hx))]
  | slice input start size =>
      refine liftM_bind_eq fun x hx => ?_
      have hfits := hwords x.type (hread input (by simp [NodeKind.operands]) x hx)
      rw [show size = output.shape.dims by rw [hdims size rfl]] at hfits
      rw [Kernel.sliceInWords_eq output hfits]
  | concat inputs axis =>
      refine liftM_bind_eq fun tensors htensors => ?_
      have hfits := hwords _ (Typing.mapM_operand_of_mapM_read hread htensors)
      rw [List.map_map] at hfits
      rw [Kernel.concatInWords_eq output hfits]
  | broadcast input axis dims =>
      refine liftM_bind_eq fun x hx => ?_
      rw [Kernel.broadcastInWords_eq output
        (hwords x.type (hread input (by simp [NodeKind.operands]) x hx))]
  | _ => rfl

end Engine
end NetImport
