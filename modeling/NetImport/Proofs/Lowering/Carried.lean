import NetImport.Proofs.Lowering.TwoOutputs

/-!
# Values that stand for tensors

The type of a value is known when a net is imported.  What it stands for is known under
bindings that are given to evaluate it, and follows from what the operands stand for.
-/

namespace NetImport

/-- A value has the type of a tensor, and stands for it under some bindings if these are
`given` to evaluate it. -/
structure Workspace.Carries (work : Workspace) (bindings : Bindings) (given : Prop)
    (value : Handle) (tensor : Tensor) : Prop where
  type_eq : work.graph.valueType value = .ok tensor.type
  evaluates : given → work.graph.evaluate bindings value.node = .ok tensor

namespace Workspace

variable {work next : Workspace} {bindings : Bindings} {given : Prop} {value : Handle}
  {values : List Handle} {tensor : Tensor} {tensors : List Tensor}

theorem Carries.mono (hcarries : work.Carries bindings given value tensor)
    (hgrows : work.Grows next) : next.Carries bindings given value tensor := by
  refine ⟨hgrows.valueType_eq hcarries.type_eq, fun hgiven => ?_⟩
  rw [hgrows.evaluate_eq bindings (Typing.lt_size_of_operand hcarries.type_eq)]
  exact hcarries.evaluates hgiven

theorem types_of_carries (hvalues : List.Forall₂ (work.Carries bindings given) values tensors) :
    values.mapM work.graph.valueType = .ok (tensors.map Tensor.type) := by
  apply mapM_eq_ok_iff.mpr
  rw [List.forall₂_map_right_iff]
  exact hvalues.imp fun _ _ hvalue => hvalue.type_eq

theorem evaluate_of_carries (hvalues : List.Forall₂ (work.Carries bindings given) values tensors)
    (hgiven : given) :
    values.mapM (fun value => work.graph.evaluate bindings value.node) = .ok tensors :=
  mapM_eq_ok_iff.mpr (hvalues.imp fun _ _ hvalue => hvalue.evaluates hgiven)

end Workspace

namespace Lowering

variable {work : Workspace} {bindings : Bindings} {given : Prop} {op : Operator} {name : String}
  {value : Handle} {values : List Handle} {tensor result : Tensor} {tensors : List Tensor}
  {axis : Nat}

theorem run_dimsOf_all (hvalues : List.Forall₂ (work.Carries bindings given) values tensors) :
    (values.mapM (dimsOf op)).run.run work =
      (.ok (tensors.map fun tensor => tensor.shape.dims), work) := by
  apply run_mapM
  rw [List.forall₂_map_right_iff]
  exact hvalues.imp fun _ _ hvalue => run_dimsOf hvalue.type_eq

theorem inputs_ne_nil
    (hnames : List.Forall₂ (fun name value => work.env.get? name = some value) op.inputs values)
    (hvalues : List.Forall₂ (work.Carries bindings given) values tensors)
    (hne : tensors ≠ []) : op.inputs ≠ [] := by
  intro hnil
  rw [hnil] at hnames
  cases hnames
  cases hvalues
  exact hne rfl

theorem succeeds_node {add : Graph → Except GraphError (Graph × Handle)} {kind : NodeKind}
    (hadd : ∀ graph, add graph = graph.append name kind) (hkind : kind.Computes)
    (hinfer : Typing.infer kind work.graph.nodes = .ok [result.type])
    (hkernel : given →
      Engine.applyKernel kind (fun operand => work.graph.evaluate bindings operand.node)
        (Tensor.zeros result.dtype result.shape) = .ok result) :
    Succeeds (build op add) work fun value last => last.Carries bindings given value result := by
  have htypes : ∀ types, Typing.infer kind work.graph.nodes = .ok types ↔
      True ∧ types = [result.type] := by
    intro types
    rw [hinfer, Except.ok.injEq, true_and, eq_comm]
  refine (succeedsIff_build hadd hkind htypes).mono fun _ _ hvalue => ?_
  exact ⟨hvalue.1, fun hgiven => (hvalue.2 bindings).trans (hkernel hgiven)⟩

theorem succeeds_reshapeNode {dtype : DType} {target : List Nat}
    (hvalue : work.Carries bindings given value tensor)
    (hresult : Kernel.reshape tensor (Tensor.zeros dtype ⟨target⟩) = .ok result) :
    Succeeds (build op fun graph => graph.reshape name value target) work
      fun value last => last.Carries bindings given value result := by
  have hcontract := Kernel.reshape_contract tensor
  obtain ⟨hdtype, hcount⟩ := hcontract.accepted_iff.mp ⟨result, hresult⟩
  have hown : result.type = ⟨dtype, ⟨target⟩⟩ := hcontract.keepsType hresult
  refine succeeds_node (fun _ => rfl) trivial ?_ ?_
  · have htype : Typing.operand work.graph.nodes value = .ok tensor.type := hvalue.type_eq
    have hreshaped : Typing.reshapeType tensor.type target = .ok result.type :=
      Typing.reshapeType_eq_ok_iff.mpr
        ⟨hown.trans (congrArg (TensorType.mk · ⟨target⟩) hdtype), hcount⟩
    simp only [Typing.infer, htype, hreshaped, ok_bind]
    rfl
  · intro hgiven
    simp only [Engine.applyKernel, hvalue.evaluates hgiven, ok_bind]
    exact hcontract.again hresult

theorem succeeds_concatNode {output : Tensor}
    (hvalues : List.Forall₂ (work.Carries bindings given) values tensors)
    (hresult : Kernel.concat tensors axis output = .ok result) :
    Succeeds (build op fun graph => graph.concat name values axis) work
      fun value last => last.Carries bindings given value result := by
  have hcontract := Kernel.concat_contract tensors axis
  have hagain := hcontract.again hresult
  obtain ⟨hne, hdtype, hshape⟩ := hcontract.accepted_iff.mp ⟨result, hagain⟩
  refine succeeds_node (fun _ => rfl) trivial ?_ ?_
  · have htypes : values.mapM (Typing.operand work.graph.nodes) = .ok (tensors.map Tensor.type) :=
      Workspace.types_of_carries hvalues
    have hjoined : Typing.concatType (tensors.map Tensor.type) axis = .ok result.type := by
      rw [Typing.concatType_eq_ok_iff, List.map_map]
      refine ⟨by simpa using hne, ?_, hshape⟩
      intro type htype
      obtain ⟨tensor, hmem, rfl⟩ := List.mem_map.mp htype
      exact hdtype tensor hmem
    simp only [Typing.infer, htypes, hjoined, ok_bind]
    rfl
  · intro hgiven
    have htensors := Workspace.evaluate_of_carries hvalues hgiven
    simp only [Engine.applyKernel, htensors, ok_bind]
    exact hagain

end Lowering
end NetImport
