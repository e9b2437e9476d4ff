import NetImport.Lowering.MatrixProduct
import NetImport.Proofs.Kernel.Matrices
import NetImport.Proofs.Lowering.Outcome

/-!
# Values that hold stacks of matrices

The steps of the lowering of matrix products, on values of a graph whose tensors are
stacks of matrices.  The types of the values are known whether or not the graph can be
evaluated; what they hold is known under bindings that give tensors to the operands.
-/

namespace NetImport

/-- A value has the type of a stack, and holds it under some bindings if these are
`given` to evaluate it. -/
structure Workspace.Holds (work : Workspace) (bindings : Bindings) (given : Prop)
    (value : Handle) (dims : List Nat) (stack : MatrixStack) : Prop where
  type_eq : work.graph.valueType value = .ok ⟨.f32, ⟨dims⟩⟩
  evaluates : given → ∃ tensor, work.graph.evaluate bindings value.node = .ok tensor ∧
    tensor.Stacks dims stack

namespace Workspace.Holds

variable {work next : Workspace} {bindings : Bindings} {given : Prop} {value : Handle}
  {dims : List Nat} {stack stack' : MatrixStack}

theorem mono (hholds : work.Holds bindings given value dims stack)
    (hcomputes : work.Computes next) :
    next.Holds bindings given value dims stack := by
  refine ⟨hcomputes.valueType_eq hholds.type_eq, fun hgiven => ?_⟩
  rw [hcomputes.evaluate_eq bindings (Typing.lt_size_of_operand hholds.type_eq)]
  exact hholds.evaluates hgiven

/-- The same elements, as another stack. -/
theorem as (hholds : work.Holds bindings given value dims stack)
    (hstack : ∀ {tensor : Tensor}, tensor.Stacks dims stack → tensor.Stacks dims stack') :
    work.Holds bindings given value dims stack' := by
  refine ⟨hholds.type_eq, fun hgiven => ?_⟩
  obtain ⟨tensor, htensor, hstacks⟩ := hholds.evaluates hgiven
  exact ⟨tensor, htensor, hstack hstacks⟩

theorem with_env (hholds : work.Holds bindings given value dims stack) (env : Environment) :
    { work with env := env }.Holds bindings given value dims stack :=
  ⟨hholds.type_eq, hholds.evaluates⟩

end Workspace.Holds

namespace Lowering

variable {work : Workspace} {bindings : Bindings} {given fits : Prop} {op : Operator}
  {name suffix : String} {value : Handle} {dims target : List Nat} {stack : MatrixStack}

/-- A node with a kernel that makes a stack from what its operands hold. -/
theorem succeedsIff_build_stack {add : Graph → Except GraphError (Graph × Handle)}
    {kind : NodeKind} (hadd : ∀ graph, add graph = graph.append name kind)
    (hkind : kind.Computes)
    (hinfer : ∀ types, Typing.infer kind work.graph.nodes = .ok types ↔
      fits ∧ types = [⟨.f32, ⟨dims⟩⟩])
    (hkernel : fits → given → ∃ result,
      Engine.applyKernel kind (fun operand => work.graph.evaluate bindings operand.node)
        (Tensor.zeros .f32 ⟨dims⟩) = .ok result ∧ result.Stacks dims stack) :
    SucceedsIff (build op add) work fits fun value last =>
      last.Holds bindings given value dims stack := by
  refine (succeedsIff_build hadd hkind hinfer).mono fun hfits _ hvalue => ?_
  refine ⟨hvalue.1, fun hgiven => ?_⟩
  obtain ⟨result, hresult, hstacks⟩ := hkernel hfits hgiven
  exact ⟨result, (hvalue.2 bindings).trans hresult, hstacks⟩

theorem succeeds_reshape (hvalue : work.Holds bindings given value dims stack)
    (hproduct : product target = product dims) :
    Succeeds (build op fun graph => graph.reshape name value target) work fun value last =>
      last.Holds bindings given value target stack := by
  refine succeedsIff_build_stack (fun _ => rfl) trivial (fun types => ?_) fun _ hgiven => ?_
  · have htype : Typing.operand work.graph.nodes value = .ok ⟨.f32, ⟨dims⟩⟩ := hvalue.type_eq
    have hcount : Shape.count ⟨target⟩ = Shape.count ⟨dims⟩ := hproduct
    simp [Typing.infer, htype, Typing.reshapeType, hcount, eq_comm]
  · obtain ⟨tensor, htensor, hstacks⟩ := hvalue.evaluates hgiven
    simp only [Engine.applyKernel, htensor, ok_bind]
    exact Kernel.reshape_stacks hstacks hproduct

theorem succeeds_reshapeTo (hvalue : work.Holds bindings given value dims stack)
    (hproduct : product target = product dims) :
    Succeeds (reshapeTo op value target suffix) work fun value last =>
      last.Holds bindings given value target stack := by
  refine succeedsIff_bind_of_run (run_dimsOf hvalue.type_eq) ?_
  split
  · next hsame => exact succeeds_pure (hsame ▸ hvalue)
  · exact succeeds_reshape hvalue hproduct

theorem succeeds_swapLast {batch : List Nat} {rows columns : Nat}
    {element : Nat → Nat → Nat → Float32}
    (hvalue : work.Holds bindings given value (batch ++ [rows, columns])
      ⟨product batch, rows, columns, element⟩) :
    Succeeds (build op fun graph => graph.transpose name value (Kernel.swapLast batch.length))
      work fun value last => last.Holds bindings given value (batch ++ [columns, rows])
        (MatrixStack.transposed ⟨product batch, rows, columns, element⟩) := by
  refine succeedsIff_build_stack (fun _ => rfl) trivial (fun types => ?_) fun _ hgiven => ?_
  · have htype : Typing.operand work.graph.nodes value =
        .ok ⟨.f32, ⟨batch ++ [rows, columns]⟩⟩ := hvalue.type_eq
    have hshape := Kernel.transposedShape_swapLast batch rows columns
    simp [Typing.infer, htype, hshape, Typing.derived, eq_comm]
  · obtain ⟨tensor, htensor, hstacks⟩ := hvalue.evaluates hgiven
    simp only [Engine.applyKernel, htensor, ok_bind]
    exact Kernel.transpose_stacks hstacks

theorem succeeds_slice {count rows columns index : Nat} {element : Nat → Nat → Nat → Float32}
    (hvalue : work.Holds bindings given value [count, rows, columns]
      ⟨count, rows, columns, element⟩) (hindex : index < count) :
    Succeeds (build op fun graph => graph.slice name value [index, 0, 0] [1, rows, columns]) work
      fun value last => last.Holds bindings given value [1, rows, columns]
        (MatrixStack.matrix ⟨count, rows, columns, element⟩ index) := by
  refine succeedsIff_build_stack (fun _ => rfl) trivial (fun types => ?_) fun _ hgiven => ?_
  · have htype : Typing.operand work.graph.nodes value = .ok ⟨.f32, ⟨[count, rows, columns]⟩⟩ :=
      hvalue.type_eq
    have hfits : Kernel.boxFits [index, 0, 0] [1, rows, columns] [count, rows, columns] = true := by
      simpa [Kernel.boxFits] using Nat.succ_le_of_lt hindex
    simp [Typing.infer, htype, Typing.sliceType, TensorType.dims, hfits, @eq_comm _ _ types]
  · obtain ⟨tensor, htensor, hstacks⟩ := hvalue.evaluates hgiven
    simp only [Engine.applyKernel, htensor, ok_bind]
    exact Kernel.slice_stacks hstacks hindex

/-- A product of two matrices is typed when their inner extents are the same. -/
theorem succeedsIff_matrixProduct {lhs rhs : Handle} {a b : MatrixStack}
    (hlhs : work.Holds bindings given lhs [a.rows, a.columns] a) (hlhsCount : a.count = 1)
    (hrhs : work.Holds bindings given rhs [b.rows, b.columns] b) (hrhsCount : b.count = 1) :
    SucceedsIff (build op fun graph => graph.matrixProduct name lhs rhs) work
      (a.columns = b.rows) fun value last =>
        last.Holds bindings given value [a.rows, b.columns] (a.product b) := by
  obtain ⟨_, m, k, x⟩ := a
  obtain ⟨_, k', n, y⟩ := b
  obtain rfl := hlhsCount
  obtain rfl := hrhsCount
  refine succeedsIff_build_stack (fun _ => rfl) trivial (fun types => ?_) fun hinner hgiven => ?_
  · have hleft : Typing.operand work.graph.nodes lhs = .ok ⟨.f32, ⟨[m, k]⟩⟩ := hlhs.type_eq
    have hright : Typing.operand work.graph.nodes rhs = .ok ⟨.f32, ⟨[k', n]⟩⟩ := hrhs.type_eq
    by_cases hinner : k = k' <;>
      simp [Typing.infer, hleft, hright, Typing.matrixProductType, Shape.matrixProduct?, hinner,
        Typing.expectDType, Shape.matrix, eq_comm]
  · subst hinner
    obtain ⟨a, ha, hastacks⟩ := hlhs.evaluates hgiven
    obtain ⟨b, hb, hbstacks⟩ := hrhs.evaluates hgiven
    simp only [Engine.applyKernel, ha, hb, ok_bind]
    exact Kernel.matrixProduct_stacks hastacks hbstacks

/-- Matrices of one size, put on top of each other. -/
theorem succeeds_concat {values : List Handle} {rows columns : Nat}
    {element : Nat → Nat → Nat → Float32} (hne : values ≠ [])
    (hvalues : ∀ (q : Nat) (value : Handle), values[q]? = some value →
      work.Holds bindings given value [rows, columns] ⟨1, rows, columns, fun _ => element q⟩) :
    Succeeds (build op fun graph => graph.concat name values 0) work fun value last =>
      last.Holds bindings given value [values.length * rows, columns]
        ⟨values.length, rows, columns, element⟩ := by
  refine succeedsIff_build_stack (fun _ => rfl) trivial (fun types => ?_) fun _ hgiven => ?_
  · have htypes : values.mapM (Typing.operand work.graph.nodes) =
        .ok (List.replicate values.length ⟨.f32, ⟨[rows, columns]⟩⟩) :=
      mapM_eq_ok_replicate fun value hmem => by
        obtain ⟨q, hq⟩ := List.mem_iff_getElem?.mp hmem
        exact (hvalues q value hq).type_eq
    obtain ⟨count, hcount⟩ := Nat.exists_eq_succ_of_ne_zero (mt List.eq_nil_of_length_eq_zero hne)
    have hjoined : Typing.concatType
        (List.replicate values.length (⟨.f32, ⟨[rows, columns]⟩⟩ : TensorType)) 0 =
          .ok ⟨.f32, ⟨[values.length * rows, columns]⟩⟩ := by
      rw [Typing.concatType_eq_ok_iff, List.map_replicate, hcount]
      refine ⟨by simp, fun type htype => ?_, Kernel.concatShape_replicate count rows columns⟩
      rw [List.eq_of_mem_replicate htype]
    simp [Typing.infer, htypes, hjoined, @eq_comm _ _ types]
  · obtain ⟨tensors, htensors⟩ := exists_mapM_eq_ok_iff.mpr fun value hmem => by
      obtain ⟨q, hq⟩ := List.mem_iff_getElem?.mp hmem
      obtain ⟨tensor, htensor, -⟩ := (hvalues q value hq).evaluates hgiven
      exact ⟨tensor, htensor⟩
    have hlength := length_of_mapM_eq_ok htensors
    have htensorsNe : tensors ≠ [] := by
      rintro rfl
      exact hne (List.eq_nil_of_length_eq_zero hlength.symm)
    simp only [Engine.applyKernel, htensors, ok_bind, ← hlength]
    refine Kernel.concat_stacks htensorsNe fun q tensor htensor => ?_
    obtain ⟨value, hvalue, hread⟩ := getElem?_of_mapM_eq_ok htensors htensor
    obtain ⟨found, hfound, hstacks⟩ := (hvalues q value hvalue).evaluates hgiven
    obtain rfl := Except.ok.inj (hfound.symm.trans hread)
    exact hstacks

theorem succeeds_broadcast {m n : Nat} {y : Nat → Nat → Nat → Float32}
    (hvalue : work.Holds bindings given value [n] ⟨1, 1, n, y⟩) :
    Succeeds (build op fun graph => graph.broadcast name value 1 [m, n]) work fun value last =>
      last.Holds bindings given value [m, n] (MatrixStack.repeated ⟨1, 1, n, y⟩ m) := by
  refine succeedsIff_build_stack (fun _ => rfl) trivial (fun types => ?_) fun _ hgiven => ?_
  · have htype : Typing.operand work.graph.nodes value = .ok ⟨.f32, ⟨[n]⟩⟩ := hvalue.type_eq
    have hfits := Kernel.checkBroadcast_row m n
    simp [Typing.infer, htype, hfits, Typing.derived, @eq_comm _ _ types]
  · obtain ⟨tensor, htensor, hstacks⟩ := hvalue.evaluates hgiven
    simp only [Engine.applyKernel, htensor, ok_bind]
    exact Kernel.broadcast_stacks hstacks

theorem succeeds_add {lhs rhs : Handle} {count rows columns : Nat}
    {x y : Nat → Nat → Nat → Float32}
    (hlhs : work.Holds bindings given lhs dims ⟨count, rows, columns, x⟩)
    (hrhs : work.Holds bindings given rhs dims ⟨count, rows, columns, y⟩) :
    Succeeds (build op fun graph => graph.arithmetic name .add lhs rhs) work fun value last =>
      last.Holds bindings given value dims
        (MatrixStack.plus ⟨count, rows, columns, x⟩ ⟨count, rows, columns, y⟩) := by
  refine succeedsIff_build_stack (fun _ => rfl) trivial (fun types => ?_) fun _ hgiven => ?_
  · have hleft : Typing.operand work.graph.nodes lhs = .ok ⟨.f32, ⟨dims⟩⟩ := hlhs.type_eq
    have hright : Typing.operand work.graph.nodes rhs = .ok ⟨.f32, ⟨dims⟩⟩ := hrhs.type_eq
    simp [Typing.infer, hleft, hright, Typing.arithmeticType, Typing.expectDType,
      Typing.expectShape, @eq_comm _ _ types]
  · obtain ⟨a, ha, hastacks⟩ := hlhs.evaluates hgiven
    obtain ⟨b, hb, hbstacks⟩ := hrhs.evaluates hgiven
    simp only [Engine.applyKernel, ha, hb, ok_bind]
    exact Kernel.add_stacks hastacks hbstacks

end Lowering
end NetImport
