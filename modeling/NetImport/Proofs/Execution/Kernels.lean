import NetImport.Execution.Engine
import NetImport.Proofs.Graph.Typing
import NetImport.Proofs.Kernel.Elementwise
import NetImport.Proofs.Kernel.Rearrangement
import NetImport.Proofs.Kernel.Reduction

/-!
# Typed nodes and their kernels

A node that types over some values has a kernel that accepts tensors of these types, with
an output of the type of the node.  What the node computes depends on its operands alone.
-/

namespace NetImport

namespace NodeKind

/-- The kinds of node that have a kernel: all but variables and saves. -/
def Computes : NodeKind → Prop
  | .variable .. => False
  | .save .. => False
  | _ => True

/-- A pooling node has no window that begins beyond the right edge of its input. -/
def WithinEdge (kind : NodeKind) (defined : Array Node) : Prop :=
  ∀ input pool type, kind = .pooling input pool → Typing.operand defined input = .ok type →
    pool.WithinEdge type.shape

/-- The extents that a node asks for by itself; its kernel reads them off its output. -/
def declaredDims? : NodeKind → Option (List Nat)
  | .reshape _ dims => some dims
  | .slice _ _ size => some size
  | .broadcast _ _ dims => some dims
  | _ => none

end NodeKind

/-- The operands that a kernel has read have the types that typing looks up. -/
theorem Typing.mapM_operand_of_mapM_read {defined : Array Node}
    {read : Handle → Except TensorError Tensor} {values : List Handle} {tensors : List Tensor}
    (hread : ∀ value ∈ values, ∀ tensor, read value = .ok tensor →
      operand defined value = .ok tensor.type)
    (htensors : values.mapM read = .ok tensors) :
    values.mapM (operand defined) = .ok (tensors.map Tensor.type) := by
  rw [mapM_eq_ok_iff] at htensors ⊢
  induction htensors with
  | nil => exact .nil
  | @cons value tensor values tensors htensor _ ih =>
      rw [List.forall_mem_cons] at hread
      exact .cons (hread.1 tensor htensor) (ih hread.2)

/-- A node has the extents that it declares. -/
theorem Typing.shape_of_declaredDims {kind : NodeKind} {defined : Array Node} {type : TensorType}
    (hinfer : infer kind defined = .ok [type]) {dims : List Nat}
    (hdims : kind.declaredDims? = some dims) :
    type.shape = ⟨dims⟩ := by
  cases kind <;> cases hdims
  · simp only [infer, bind_eq_ok_iff, pure_eq_ok_iff, List.singleton_inj,
      reshapeType_eq_ok_iff] at hinfer
    obtain ⟨x, -, _, ⟨rfl, -⟩, rfl⟩ := hinfer
    rfl
  · simp only [infer, bind_eq_ok_iff, pure_eq_ok_iff, List.singleton_inj,
      sliceType_eq_ok_iff] at hinfer
    obtain ⟨x, -, _, ⟨rfl, -⟩, rfl⟩ := hinfer
    rfl
  · simp only [infer, bind_eq_ok_iff, pure_eq_ok_iff, List.singleton_inj] at hinfer
    obtain ⟨x, -, -, -, rfl⟩ := hinfer
    rfl

namespace Engine

theorem applyKernel_fillsOutput {kind : NodeKind} (hkind : kind.Computes)
    (read : Handle → Except TensorError Tensor) :
    Kernel.FillsOutput (applyKernel kind read) := by
  cases kind with
  | convolution input filter bias params =>
      exact .bind fun bias => .bind fun x => .bind fun w =>
        (Kernel.convolution_contract params x w bias).toFillsOutput
  | pooling input params => exact .bind fun x => Kernel.pooling_fillsOutput params x
  | matrixProduct lhs rhs =>
      exact .bind fun a => .bind fun b => (Kernel.matrixProduct_contract a b).toFillsOutput
  | transpose input perm =>
      exact .bind fun x => (Kernel.transpose_contract x perm).toFillsOutput
  | reshape input dims => exact .bind fun x => (Kernel.reshape_contract x).toFillsOutput
  | slice input start size =>
      exact .bind fun x => (Kernel.slice_contract x start).toFillsOutput
  | concat inputs axis =>
      exact .bind fun tensors => (Kernel.concat_contract tensors axis).toFillsOutput
  | broadcast input axis dims =>
      exact .bind fun x => (Kernel.broadcast_contract x axis).toFillsOutput
  | splat value type => exact (Kernel.splat_contract value).toFillsOutput
  | isNaN input => exact .bind fun x => (Kernel.isNaN_contract x).toFillsOutput
  | select cond onTrue onFalse =>
      exact .bind fun c => .bind fun a => .bind fun b =>
        (Kernel.select_contract c a b).toFillsOutput
  | clip input low high =>
      exact .bind fun x => (Kernel.clip_contract x low high).toFillsOutput
  | arithmetic op lhs rhs =>
      exact .bind fun a => .bind fun b => (Kernel.arithmetic_contract op a b).toFillsOutput
  | unary op input => exact .bind fun x => (Kernel.unary_contract op x).toFillsOutput
  | softmax input => exact .bind fun x => (Kernel.softmax_contract x).toFillsOutput
  | _ => exact hkind.elim

/-- A kernel looks up the operands of its node and nothing else. -/
theorem applyKernel_congr_read {kind : NodeKind}
    {read read' : Handle → Except TensorError Tensor}
    (hagree : ∀ value ∈ kind.operands, read value = read' value) (output : Tensor) :
    applyKernel kind read output = applyKernel kind read' output := by
  cases kind with
  | convolution input filter bias params =>
      have hbias : bias.mapM read = bias.mapM read' := by
        cases bias with
        | none => rfl
        | some value =>
            rw [Option.mapM_some, Option.mapM_some, hagree value (by simp [NodeKind.operands])]
      simp only [applyKernel, hbias, hagree input (by simp [NodeKind.operands]),
        hagree filter (by simp [NodeKind.operands])]
  | concat inputs axis =>
      have hinputs : inputs.mapM read = inputs.mapM read' := mapM_congr hagree
      simp only [applyKernel, hinputs]
  | _ =>
      simp only [NodeKind.operands, List.forall_mem_cons, List.not_mem_nil, false_imp_iff,
        implies_true, and_true] at hagree
      simp only [applyKernel, hagree]

theorem exists_mapM_of_types {defined : Array Node} {values : List Handle}
    {types : List TensorType} {read : Handle → Except TensorError Tensor}
    (htypes : values.mapM (Typing.operand defined) = .ok types)
    (hread : ∀ value ∈ values, ∀ type, Typing.operand defined value = .ok type →
      ∃ tensor, read value = .ok tensor ∧ tensor.type = type) :
    ∃ tensors, values.mapM read = .ok tensors ∧ tensors.map Tensor.type = types := by
  simp only [mapM_eq_ok_iff] at htypes ⊢
  induction htypes with
  | nil => exact ⟨[], .nil, rfl⟩
  | @cons value type values types htype _ ih =>
      rw [List.forall_mem_cons] at hread
      obtain ⟨tensor, htensor, rfl⟩ := hread.1 type htype
      obtain ⟨tensors, htensors, rfl⟩ := ih hread.2
      exact ⟨tensor :: tensors, .cons htensor htensors, rfl⟩

/-- A node that types to one result is computed from operands of their types. -/
theorem exists_applyKernel {kind : NodeKind} {defined : Array Node} {type : TensorType}
    {read : Handle → Except TensorError Tensor} {output : Tensor}
    (hkind : kind.Computes) (hinfer : Typing.infer kind defined = .ok [type])
    (hedge : kind.WithinEdge defined)
    (hread : ∀ value ∈ kind.operands, ∀ found, Typing.operand defined value = .ok found →
      ∃ tensor, read value = .ok tensor ∧ tensor.type = found)
    (houtput : output.type = type) :
    ∃ result, applyKernel kind read output = .ok result := by
  subst houtput
  cases kind with
  | convolution input filter bias params =>
      simp only [Typing.infer, bind_eq_ok_iff, pure_eq_ok_iff, List.singleton_inj,
        Typing.convolutionType_eq_ok_iff] at hinfer
      obtain ⟨x, hx, w, hw, _, ⟨hxSingle, hwSingle, hsingle, hshape, hbias⟩, rfl⟩ := hinfer
      obtain ⟨x, hinput, rfl⟩ := hread input (by simp [NodeKind.operands]) x hx
      obtain ⟨w, hfilter, rfl⟩ := hread filter (by simp [NodeKind.operands]) w hw
      obtain ⟨found, hfound, htypes⟩ : ∃ found, bias.mapM read = .ok found ∧
          ∀ b ∈ found, b.type = ⟨.f32, Shape.vector (w.shape.dims.headD 0)⟩ := by
        cases bias with
        | none => exact ⟨none, rfl, by simp⟩
        | some value =>
            obtain ⟨b, hb, htype⟩ :=
              hread value (by simp [NodeKind.operands]) _ (hbias value rfl)
            refine ⟨some b, ?_, fun other hother => ?_⟩
            · rw [Option.mapM_some, hb]
              rfl
            · rw [← Option.mem_some_iff.mp hother]
              exact htype
      simp only [applyKernel, hfound, hinput, hfilter, ok_bind]
      exact (Kernel.convolution_contract params x w found).accepted_iff.mpr
        ⟨hxSingle, hwSingle, hsingle, hshape, htypes⟩
  | pooling input params =>
      simp only [Typing.infer, bind_eq_ok_iff, pure_eq_ok_iff, List.singleton_inj,
        Typing.expectDType_eq_ok_iff, Typing.derived_eq_ok_iff] at hinfer
      obtain ⟨x, hx, -, hsingle, shape, hshape, htype⟩ := hinfer
      obtain ⟨x, hinput, rfl⟩ := hread input (by simp [NodeKind.operands]) x hx
      simp only [applyKernel, hinput, ok_bind]
      refine (Kernel.pooling_contract params x (hedge _ _ _ rfl hx)).accepted_iff.mpr ?_
      rw [← htype]
      exact ⟨hsingle.symm, rfl, hshape⟩
  | matrixProduct lhs rhs =>
      simp only [Typing.infer, bind_eq_ok_iff, pure_eq_ok_iff, List.singleton_inj,
        Typing.matrixProductType_eq_ok_iff] at hinfer
      obtain ⟨a, ha, b, hb, _, hproduct, rfl⟩ := hinfer
      obtain ⟨a, hlhs, rfl⟩ := hread lhs (by simp [NodeKind.operands]) a ha
      obtain ⟨b, hrhs, rfl⟩ := hread rhs (by simp [NodeKind.operands]) b hb
      simp only [applyKernel, hlhs, hrhs, ok_bind]
      exact (Kernel.matrixProduct_contract a b).accepted_iff.mpr hproduct
  | transpose input perm =>
      simp only [Typing.infer, bind_eq_ok_iff, pure_eq_ok_iff, List.singleton_inj,
        Typing.derived_eq_ok_iff] at hinfer
      obtain ⟨x, hx, shape, hshape, htype⟩ := hinfer
      obtain ⟨x, hinput, rfl⟩ := hread input (by simp [NodeKind.operands]) x hx
      simp only [applyKernel, hinput, ok_bind]
      refine (Kernel.transpose_contract x perm).accepted_iff.mpr ?_
      rw [← htype]
      exact ⟨rfl, hshape⟩
  | reshape input dims =>
      simp only [Typing.infer, bind_eq_ok_iff, pure_eq_ok_iff, List.singleton_inj,
        Typing.reshapeType_eq_ok_iff] at hinfer
      obtain ⟨x, hx, _, ⟨htype, hcount⟩, rfl⟩ := hinfer
      obtain ⟨x, hinput, rfl⟩ := hread input (by simp [NodeKind.operands]) x hx
      simp only [applyKernel, hinput, ok_bind]
      refine (Kernel.reshape_contract x).accepted_iff.mpr ?_
      rw [htype]
      exact ⟨rfl, hcount⟩
  | slice input start size =>
      simp only [Typing.infer, bind_eq_ok_iff, pure_eq_ok_iff, List.singleton_inj,
        Typing.sliceType_eq_ok_iff] at hinfer
      obtain ⟨x, hx, _, ⟨htype, hfits⟩, rfl⟩ := hinfer
      obtain ⟨x, hinput, rfl⟩ := hread input (by simp [NodeKind.operands]) x hx
      simp only [applyKernel, hinput, ok_bind]
      refine (Kernel.slice_contract x start).accepted_iff.mpr ?_
      rw [htype]
      exact ⟨rfl, hfits⟩
  | concat inputs axis =>
      simp only [Typing.infer, bind_eq_ok_iff, pure_eq_ok_iff, List.singleton_inj,
        Typing.concatType_eq_ok_iff] at hinfer
      obtain ⟨types, htypes, _, hjoined, rfl⟩ := hinfer
      obtain ⟨tensors, htensors, rfl⟩ := exists_mapM_of_types htypes hread
      simp only [applyKernel, htensors, ok_bind]
      refine (Kernel.concat_contract tensors axis).accepted_iff.mpr ?_
      simpa [Function.comp_def, Tensor.type] using hjoined
  | broadcast input axis dims =>
      simp only [Typing.infer, bind_eq_ok_iff, pure_eq_ok_iff, List.singleton_inj,
        Typing.derived_eq_ok_iff] at hinfer
      obtain ⟨x, hx, ⟨⟩, hstretches, htype⟩ := hinfer
      obtain ⟨x, hinput, rfl⟩ := hread input (by simp [NodeKind.operands]) x hx
      simp only [applyKernel, hinput, ok_bind]
      refine (Kernel.broadcast_contract x axis).accepted_iff.mpr ?_
      rw [← htype]
      exact ⟨rfl, hstretches⟩
  | splat value type => exact (Kernel.splat_contract value).accepted_iff.mpr trivial
  | isNaN input =>
      simp only [Typing.infer, bind_eq_ok_iff, pure_eq_ok_iff, List.singleton_inj,
        Typing.expectDType_eq_ok_iff] at hinfer
      obtain ⟨x, hx, -, hsingle, htype⟩ := hinfer
      obtain ⟨x, hinput, rfl⟩ := hread input (by simp [NodeKind.operands]) x hx
      simp only [applyKernel, hinput, ok_bind]
      exact (Kernel.isNaN_contract x).accepted_iff.mpr ⟨hsingle.symm, htype.symm⟩
  | select cond onTrue onFalse =>
      simp only [Typing.infer, bind_eq_ok_iff, pure_eq_ok_iff, List.singleton_inj,
        Typing.selectType_eq_ok_iff] at hinfer
      obtain ⟨c, hc, a, ha, b, hb, _, hbranches, rfl⟩ := hinfer
      obtain ⟨c, hcond, rfl⟩ := hread cond (by simp [NodeKind.operands]) c hc
      obtain ⟨a, htrue, rfl⟩ := hread onTrue (by simp [NodeKind.operands]) a ha
      obtain ⟨b, hfalse, rfl⟩ := hread onFalse (by simp [NodeKind.operands]) b hb
      simp only [applyKernel, hcond, htrue, hfalse, ok_bind]
      exact (Kernel.select_contract c a b).accepted_iff.mpr hbranches
  | clip input low high =>
      simp only [Typing.infer, bind_eq_ok_iff, pure_eq_ok_iff, List.singleton_inj,
        Typing.clipType_eq_ok_iff] at hinfer
      obtain ⟨x, hx, _, hbounds, rfl⟩ := hinfer
      obtain ⟨x, hinput, rfl⟩ := hread input (by simp [NodeKind.operands]) x hx
      simp only [applyKernel, hinput, ok_bind]
      exact (Kernel.clip_contract x low high).accepted_iff.mpr hbounds
  | arithmetic op lhs rhs =>
      simp only [Typing.infer, bind_eq_ok_iff, pure_eq_ok_iff, List.singleton_inj,
        Typing.arithmeticType_eq_ok_iff] at hinfer
      obtain ⟨a, ha, b, hb, _, hsame, rfl⟩ := hinfer
      obtain ⟨a, hlhs, rfl⟩ := hread lhs (by simp [NodeKind.operands]) a ha
      obtain ⟨b, hrhs, rfl⟩ := hread rhs (by simp [NodeKind.operands]) b hb
      simp only [applyKernel, hlhs, hrhs, ok_bind]
      exact (Kernel.arithmetic_contract op a b).accepted_iff.mpr hsame
  | unary op input =>
      simp only [Typing.infer, bind_eq_ok_iff, pure_eq_ok_iff, List.singleton_inj,
        Typing.expectDType_eq_ok_iff] at hinfer
      obtain ⟨x, hx, -, hsingle, htype⟩ := hinfer
      obtain ⟨x, hinput, rfl⟩ := hread input (by simp [NodeKind.operands]) x hx
      simp only [applyKernel, hinput, ok_bind]
      exact (Kernel.unary_contract op x).accepted_iff.mpr ⟨hsingle.symm, htype.symm⟩
  | softmax input =>
      simp only [Typing.infer, bind_eq_ok_iff, pure_eq_ok_iff, List.singleton_inj,
        Typing.softmaxType_eq_ok_iff] at hinfer
      obtain ⟨x, hx, _, hmatrix, rfl⟩ := hinfer
      obtain ⟨x, hinput, rfl⟩ := hread input (by simp [NodeKind.operands]) x hx
      simp only [applyKernel, hinput, ok_bind]
      exact (Kernel.softmax_contract x).accepted_iff.mpr hmatrix
  | _ => exact hkind.elim

end Engine
end NetImport
