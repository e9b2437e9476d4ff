import NetImport.Proofs.Kernel.Images
import NetImport.Proofs.Lowering.OneOutput

/-!
# Images among the values of a graph

Kernels take images with the channels first.  The lowerings around them transpose what is
stored otherwise, on the way in and on the way out, and the pixels stay what they are.
-/

namespace NetImport

open Lowering (StorageOrder)

/-- A computation comes to a tensor of some pixels, or to the failure in their place. -/
def Shows (result : Except TensorError Tensor) (order : StorageOrder) (dims : ImageDims)
    (outcome : Except TensorError Pixels) : Prop :=
  match outcome with
  | .ok pixels => ∃ tensor, result = .ok tensor ∧ tensor.Depicts order dims pixels
  | .error error => result = .error error

/-- A value has the type of an image batch, and shows it under some bindings if these are
`given` to evaluate it. -/
structure Workspace.Depicts (work : Workspace) (bindings : Bindings) (given : Prop)
    (value : Handle) (order : StorageOrder) (dims : ImageDims)
    (outcome : Except TensorError Pixels) : Prop where
  type_eq : work.graph.valueType value = .ok ⟨.f32, ⟨dims.stored order⟩⟩
  shows : given → Shows (work.graph.evaluate bindings value.node) order dims outcome

namespace Workspace.Depicts

variable {work next : Workspace} {bindings : Bindings} {given : Prop} {value : Handle}
  {order : StorageOrder} {dims : ImageDims} {outcome : Except TensorError Pixels}

theorem mono (hvalue : work.Depicts bindings given value order dims outcome)
    (hcomputes : work.Computes next) :
    next.Depicts bindings given value order dims outcome := by
  refine ⟨hcomputes.valueType_eq hvalue.type_eq, fun hgiven => ?_⟩
  rw [hcomputes.evaluate_eq bindings (Typing.lt_size_of_operand hvalue.type_eq)]
  exact hvalue.shows hgiven

theorem with_env (hvalue : work.Depicts bindings given value order dims outcome)
    (env : Environment) :
    { work with env := env }.Depicts bindings given value order dims outcome :=
  ⟨hvalue.type_eq, hvalue.shows⟩

end Workspace.Depicts

/-- What a value is known to depict under bindings that are `given` to evaluate it. -/
theorem Workspace.exists_depicts {work : Workspace} {bindings : Bindings} {given : Prop}
    {value : Handle} {order : StorageOrder} {dims : ImageDims} {tensor : Tensor}
    (htyped : work.graph.valueType value = .ok ⟨.f32, ⟨dims.stored order⟩⟩)
    (hvalue : given → work.HasValue bindings value ⟨.f32, ⟨dims.stored order⟩⟩ tensor) :
    ∃ pixels, (given → tensor.Depicts order dims pixels) ∧
      work.Depicts bindings given value order dims (.ok pixels) := by
  by_cases hgiven : given
  · have htensor := hvalue hgiven
    obtain ⟨pixels, hdepicts⟩ := Tensor.exists_depicts htensor.type_eq
    exact ⟨pixels, fun _ => hdepicts, htyped, fun _ => ⟨tensor, htensor.evaluates, hdepicts⟩⟩
  · exact ⟨fun _ _ _ _ => 0.0, fun h => absurd h hgiven, htyped, fun h => absurd h hgiven⟩

namespace Lowering

variable {work : Workspace} {bindings : Bindings} {given fits : Prop} {op : Operator}
  {name suffix : String} {value : Handle} {order order' : StorageOrder} {perm : List Nat}
  {dims : ImageDims} {outcome : Except TensorError Pixels}

theorem succeeds_reorder (hperm : Kernel.Reorders perm order order')
    (hvalue : work.Depicts bindings given value order dims outcome) :
    Succeeds (build op fun graph => graph.transpose name value perm) work fun value last =>
      last.Depicts bindings given value order' dims outcome := by
  have htype : Typing.operand work.graph.nodes value = .ok ⟨.f32, ⟨dims.stored order⟩⟩ :=
    hvalue.type_eq
  have hinfer (types : List TensorType) :
      Typing.infer (.transpose value perm) work.graph.nodes = .ok types ↔
        True ∧ types = [⟨.f32, ⟨dims.stored order'⟩⟩] := by
    simp [Typing.infer, htype, hperm.shape_eq, Typing.derived, @eq_comm _ _ types]
  have hkind : (NodeKind.transpose value perm).Computes := trivial
  refine (succeedsIff_build (fun _ => rfl) hkind hinfer).mono fun _ _ hresult => ?_
  refine ⟨hresult.1, fun hgiven => ?_⟩
  have hshown := hvalue.shows hgiven
  rw [hresult.2 bindings]
  cases outcome with
  | ok pixels =>
      obtain ⟨tensor, htensor, hdepicts⟩ := hshown
      simp only [Engine.applyKernel, htensor, ok_bind]
      exact Kernel.transpose_depicts hperm hdepicts
  | error error =>
      unfold Shows at hshown
      simp only [Engine.applyKernel, hshown, error_bind, Shows]

theorem succeeds_toChannelsFirst
    (hvalue : work.Depicts bindings given value order dims outcome) :
    Succeeds (toChannelsFirst op order value suffix) work fun value last =>
      last.Depicts bindings given value .channelsFirst dims outcome := by
  cases order with
  | channelsFirst => exact succeeds_pure hvalue
  | channelsLast => exact succeeds_reorder Kernel.reorders_toChannelsFirst hvalue

theorem bindsIff_bindResult
    (hvalue : work.Depicts bindings given value .channelsFirst dims outcome) :
    BindsIff op (bindResult op order value) work True fun value last =>
      last.Depicts bindings given value order dims outcome := by
  cases order with
  | channelsFirst => exact bindsIff_bindOutput fun env => hvalue.with_env env
  | channelsLast =>
      exact bindsIff_bind_bindOutput (succeeds_reorder Kernel.reorders_toChannelsLast hvalue)
        fun env hresult => hresult.with_env env

theorem run_requireRankFour {what : String} {extents : List Nat}
    (htype : work.graph.valueType value = .ok ⟨.f32, ⟨extents⟩⟩) (hlength : extents.length = 4) :
    (requireRankFour op what value).run.run work = (.ok (), work) := by
  rw [requireRankFour, run_bind, run_dimsOf htype]
  dsimp only [TensorType.dims]
  rw [if_neg (not_not.mpr hlength)]
  rfl

theorem length_of_run_requireRankFour {what : String} {extents : List Nat} {u : Unit}
    {last : Workspace} (htype : work.graph.valueType value = .ok ⟨.f32, ⟨extents⟩⟩)
    (hrun : (requireRankFour op what value).run.run work = (.ok u, last)) :
    extents.length = 4 ∧ last = work := by
  rw [requireRankFour, run_bind, run_dimsOf htype] at hrun
  dsimp only [TensorType.dims] at hrun
  by_cases hlength : extents.length = 4
  · rw [if_neg (not_not.mpr hlength)] at hrun
    cases hrun
    exact ⟨hlength, rfl⟩
  · rw [if_pos hlength] at hrun
    cases hrun

theorem run_imagePlane (hvalue : work.Depicts bindings given value .channelsFirst dims outcome) :
    (imagePlane op value).run.run work = (.ok ⟨dims.height, dims.width⟩, work) := by
  rw [imagePlane, run_bind, run_dimsOf hvalue.type_eq]
  rfl

end Lowering
end NetImport
