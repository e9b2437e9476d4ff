import NetImport.Graph.Basic
import NetImport.Proofs.Sequencing

/-!
# What typing says about a node

A node types only when all its operands are values of earlier nodes.  It then has
one result, except for a save, which has none and points at an output variable of
the type of its input.
-/

namespace NetImport
namespace Typing

theorem operand_eq_ok_iff {defined : Array Node} {value : Handle} {type : TensorType} :
    operand defined value = .ok type ↔
      ∃ node, defined[value.node]? = some node ∧ node.results[value.result]? = some type := by
  unfold operand
  split
  · next hnone => simp [hnone]
  · next node hnode =>
      split
      · next hnone => simp [hnode, hnone]
      · next result hresult => simp [hnode, hresult]

theorem lt_size_of_operand {defined : Array Node} {value : Handle} {type : TensorType}
    (hoperand : operand defined value = .ok type) :
    value.node < defined.size := by
  obtain ⟨node, hnode, -⟩ := operand_eq_ok_iff.mp hoperand
  exact (Array.getElem?_eq_some_iff.mp hnode).1

@[simp] theorem expectDType_eq_ok_iff {op : String} {expected actual : DType} {u : Unit} :
    expectDType op expected actual = .ok u ↔ expected = actual := by
  unfold expectDType
  split <;> simp_all

@[simp] theorem expectShape_eq_ok_iff {op : String} {expected actual : Shape} {u : Unit} :
    expectShape op expected actual = .ok u ↔ expected = actual := by
  unfold expectShape
  split <;> simp_all

@[simp] theorem derived_eq_ok_iff {α : Type} {result : Except TensorError α} {value : α} :
    derived result = .ok value ↔ result = .ok value := by
  cases result <;> simp [derived]

/-! ## Result types -/

theorem type_eq_iff {x y : TensorType} : x = y ↔ x.dtype = y.dtype ∧ x.shape = y.shape := by
  cases x
  cases y
  simp

theorem convolutionType_eq_ok_iff {x w t : TensorType} {bias : Option Handle}
    {params : Convolution} {type : Handle → Except GraphError TensorType} :
    convolutionType x w bias params type = .ok t ↔
      x.dtype = .f32 ∧ w.dtype = .f32 ∧ t.dtype = .f32 ∧
        params.outputShape x.shape w.shape = .ok t.shape ∧
        ∀ value ∈ bias, type value = .ok ⟨.f32, Shape.vector (w.dims.headD 0)⟩ := by
  simp only [convolutionType, bind_eq_ok_iff, expectDType_eq_ok_iff, derived_eq_ok_iff]
  cases bias with
  | none =>
      simp only [pure_eq_ok_iff, Option.not_mem_none, false_imp_iff, implies_true, and_true]
      constructor
      · rintro ⟨-, hx, -, hw, shape, hshape, rfl⟩
        exact ⟨hx.symm, hw.symm, rfl, hshape⟩
      · rintro ⟨hx, hw, ht, hshape⟩
        exact ⟨(), hx.symm, (), hw.symm, _, hshape, type_eq_iff.mpr ⟨ht.symm, rfl⟩⟩
  | some value =>
      simp only [bind_eq_ok_iff, pure_eq_ok_iff, expectDType_eq_ok_iff, expectShape_eq_ok_iff,
        Option.mem_some_iff, forall_eq']
      constructor
      · rintro ⟨-, hx, -, hw, shape, hshape, b, hb, -, hdtype, -, hbias, rfl⟩
        have htype : b = ⟨.f32, Shape.vector (w.dims.headD 0)⟩ :=
          type_eq_iff.mpr ⟨hdtype.symm, hbias.symm⟩
        exact ⟨hx.symm, hw.symm, rfl, hshape, htype ▸ hb⟩
      · rintro ⟨hx, hw, ht, hshape, hb⟩
        exact ⟨(), hx.symm, (), hw.symm, _, hshape, _, hb, (), rfl, (), rfl,
          type_eq_iff.mpr ⟨ht.symm, rfl⟩⟩

theorem matrixProductType_eq_ok_iff {a b t : TensorType} :
    matrixProductType a b = .ok t ↔
      a.dtype = .f32 ∧ b.dtype = .f32 ∧
        ∃ m k n, a.shape.matrixProduct? b.shape = some (m, k, n) ∧
          t = ⟨.f32, Shape.matrix m n⟩ := by
  simp only [matrixProductType, bind_eq_ok_iff, expectDType_eq_ok_iff]
  constructor
  · rintro ⟨-, ha, -, hb, hproduct⟩
    split at hproduct
    · next m k n hfits =>
        exact ⟨ha.symm, hb.symm, m, k, n, hfits, (pure_eq_ok_iff.mp hproduct).symm⟩
    · cases hproduct
  · rintro ⟨ha, hb, m, k, n, hfits, rfl⟩
    refine ⟨(), ha.symm, (), hb.symm, ?_⟩
    rw [hfits]
    rfl

theorem reshapeType_eq_ok_iff {x t : TensorType} {dims : List Nat} :
    reshapeType x dims = .ok t ↔
      t = ⟨x.dtype, ⟨dims⟩⟩ ∧ Shape.count ⟨dims⟩ = x.shape.count := by
  unfold reshapeType
  split
  · next hcount =>
      simp only [Except.ok.injEq, hcount, and_true]
      exact eq_comm
  · next hcount => simp only [reduceCtorEq, hcount, and_false]

theorem sliceType_eq_ok_iff {x t : TensorType} {start size : List Nat} :
    sliceType x start size = .ok t ↔
      t = ⟨x.dtype, ⟨size⟩⟩ ∧ Kernel.boxFits start size x.dims = true := by
  unfold sliceType
  split
  · next hfits =>
      simp only [Except.ok.injEq, hfits, and_true]
      exact eq_comm
  · next hfits => simp only [reduceCtorEq, hfits, Bool.false_eq_true, and_false]

theorem concatType_eq_ok_iff {types : List TensorType} {axis : Nat} {t : TensorType} :
    concatType types axis = .ok t ↔
      types ≠ [] ∧ (∀ type ∈ types, type.dtype = t.dtype) ∧
        Kernel.concatShape axis (types.map TensorType.shape) = .ok t.shape := by
  cases types with
  | nil => simp [concatType]
  | cons first others =>
      simp only [concatType, bind_eq_ok_iff, pure_eq_ok_iff, forM_eq_ok_iff,
        expectDType_eq_ok_iff, derived_eq_ok_iff, List.forall_mem_cons]
      constructor
      · rintro ⟨-, hdtypes, shape, hshape, rfl⟩
        exact ⟨List.cons_ne_nil _ _, ⟨rfl, fun type hmem => (hdtypes type hmem).symm⟩, hshape⟩
      · rintro ⟨-, ⟨hfirst, hdtypes⟩, hshape⟩
        exact ⟨(), fun type hmem => hfirst.trans (hdtypes type hmem).symm, _, hshape,
          type_eq_iff.mpr ⟨hfirst, rfl⟩⟩

theorem selectType_eq_ok_iff {c a b t : TensorType} :
    selectType c a b = .ok t ↔ c = ⟨.bool, a.shape⟩ ∧ b = a ∧ t = a := by
  simp only [selectType, bind_eq_ok_iff, pure_eq_ok_iff, expectDType_eq_ok_iff,
    expectShape_eq_ok_iff, type_eq_iff]
  grind

theorem clipType_eq_ok_iff {x t : TensorType} {low high : Float} :
    clipType x low high = .ok t ↔ t = x ∧ ¬low > high ∧ x.dtype ≠ .bool := by
  unfold clipType
  split
  · next hbool => simp [hbool]
  · next hbool =>
      split
      · next horder => simp [horder]
      · next horder =>
          simp only [Except.ok.injEq, horder, hbool, not_false_eq_true, ne_eq, and_true]
          exact eq_comm

theorem arithmeticType_eq_ok_iff {op : ArithmeticOp} {a b t : TensorType} :
    arithmeticType op a b = .ok t ↔ a.dtype = .f32 ∧ b = a ∧ t = a := by
  simp only [arithmeticType, bind_eq_ok_iff, pure_eq_ok_iff, expectDType_eq_ok_iff,
    expectShape_eq_ok_iff, type_eq_iff]
  grind

theorem softmaxType_eq_ok_iff {x t : TensorType} :
    softmaxType x = .ok t ↔ x.dtype = .f32 ∧ x.shape.rank = 2 ∧ t = x := by
  simp only [softmaxType, bind_eq_ok_iff, expectDType_eq_ok_iff]
  constructor
  · rintro ⟨-, hsingle, hrest⟩
    split at hrest
    · next hrank => exact ⟨hsingle.symm, hrank, (pure_eq_ok_iff.mp hrest).symm⟩
    · cases hrest
  · rintro ⟨hsingle, hrank, rfl⟩
    exact ⟨(), hsingle.symm, by rw [if_pos hrank]; rfl⟩

/-! ## Operands and results of a node -/

theorem operand_of_infer {kind : NodeKind} {defined : Array Node} {types : List TensorType}
    (hinfer : infer kind defined = .ok types) {value : Handle}
    (hvalue : value ∈ kind.operands) :
    ∃ type, operand defined value = .ok type := by
  cases kind with
  | concat inputs axis =>
      simp only [infer, bind_eq_ok_iff] at hinfer
      obtain ⟨found, hfound, -⟩ := hinfer
      obtain ⟨type, -, htype⟩ := exists_mem_of_mapM_eq_ok hfound hvalue
      exact ⟨type, htype⟩
  | convolution input filter bias params =>
      simp only [infer, bind_eq_ok_iff] at hinfer
      obtain ⟨x, hx, w, hw, type, htype, -⟩ := hinfer
      cases bias with
      | none => simp [NodeKind.operands] at hvalue; grind
      | some bias =>
          simp only [convolutionType, bind_eq_ok_iff] at htype
          obtain ⟨-, -, -, -, -, -, b, hb, -⟩ := htype
          simp [NodeKind.operands] at hvalue
          grind
  | _ =>
      simp [infer, NodeKind.operands] at hinfer hvalue
      try grind

/-- A node of any kind but a save has one result. -/
theorem results_of_infer {kind : NodeKind} {defined : Array Node} {types : List TensorType}
    (hinfer : infer kind defined = .ok types) :
    (∃ input output, kind = .save input output) ∧ types = [] ∨
      (∀ input output, kind ≠ .save input output) ∧ ∃ type, types = [type] := by
  cases kind <;> simp [infer] at hinfer ⊢ <;> grind

theorem results_of_infer_variable {role : VariableRole} {type : TensorType}
    {defined : Array Node} {types : List TensorType}
    (hinfer : infer (.variable role type) defined = .ok types) :
    types = [type] := by
  simp only [infer, bind_eq_ok_iff, pure_eq_ok_iff] at hinfer
  obtain ⟨declared, hdeclared, hresults⟩ := hinfer
  have htype : declared = type := by
    unfold variableType at hdeclared
    split at hdeclared
    · split at hdeclared
      · exact (Except.ok.inj hdeclared).symm
      · cases hdeclared
    · exact (Except.ok.inj hdeclared).symm
  rw [← hresults, htype]

theorem target_of_infer_save {input : Handle} {output : Nat} {defined : Array Node}
    {types : List TensorType} (hinfer : infer (.save input output) defined = .ok types) :
    ∃ target type, defined[output]? = some target ∧
      target.kind = .variable .output type ∧ operand defined input = .ok type := by
  simp only [infer, bind_eq_ok_iff] at hinfer
  obtain ⟨x, hx, ⟨⟩, hcheck, -⟩ := hinfer
  unfold checkSave at hcheck
  split at hcheck
  · cases hcheck
  · next target htarget =>
      split at hcheck
      · next type hkind =>
          simp only [bind_eq_ok_iff, expectDType_eq_ok_iff, expectShape_eq_ok_iff] at hcheck
          obtain ⟨-, hdtype, hshape⟩ := hcheck
          have htype : x = type := type_eq_iff.mpr ⟨hdtype.symm, hshape.symm⟩
          exact ⟨target, type, htarget, hkind, htype ▸ hx⟩
      · cases hcheck

end Typing
end NetImport
