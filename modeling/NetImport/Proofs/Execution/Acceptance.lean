import NetImport.Proofs.Execution.Words

/-!
# Typing and kernels accept the same nodes

A node is checked twice: when it is typed, by the types of its operands, and when it runs, by
its kernel.  Both checks come to the same answer.  A node that types has a kernel that accepts
every output of its type, and a node that does not has one that refuses every output.
-/

namespace NetImport

namespace Kernel

/-- Pooling that succeeds has passed all checks of its types. -/
theorem outputShape_of_pooling {pool : Pooling} {input output result : Tensor}
    (hdone : pooling pool input output = .ok result) :
    input.dtype = .f32 ∧ pool.outputShape input.shape = .ok output.shape := by
  simp only [pooling, bind_eq_ok_iff, requireShape_eq_ok_iff] at hdone
  obtain ⟨x, hx, y, -, expected, hexpected, -, hshape, -⟩ := hdone
  have hdtype := dtype_of_requireSingle hx
  rw [hshape] at hexpected
  exact ⟨hdtype, hexpected⟩

end Kernel

namespace Typing

variable {defined : Array Node} {read : Handle → Except TensorError Tensor}

/-- An operand that is read has the type that typing looks up. -/
theorem operand_of_read {value : Handle}
    (hread : ∃ tensor, read value = .ok tensor ∧ operand defined value = .ok tensor.type) :
    ∀ tensor, read value = .ok tensor → operand defined value = .ok tensor.type := by
  intro tensor htensor
  obtain ⟨other, hother, htype⟩ := hread
  rwa [Except.ok.inj (htensor.symm.trans hother)]

/-- A node whose kernel succeeds on an output of the declared extents types over the operands
of the kernel. -/
theorem exists_infer_of_applyKernel {kind : NodeKind} {output result : Tensor}
    (hkind : kind.Computes)
    (hread : ∀ value ∈ kind.operands, ∃ tensor, read value = .ok tensor ∧
      operand defined value = .ok tensor.type)
    (hdims : ∀ dims, kind.declaredDims? = some dims → output.shape = ⟨dims⟩)
    (hdone : Engine.applyKernel kind read output = .ok result) :
    ∃ type, infer kind defined = .ok [type] := by
  cases kind with
  | convolution input filter bias params =>
      obtain ⟨x, hinput, hx⟩ := hread input (by simp [NodeKind.operands])
      obtain ⟨w, hfilter, hw⟩ := hread filter (by simp [NodeKind.operands])
      simp only [Engine.applyKernel, bind_eq_ok_iff, hinput, hfilter, Except.ok.injEq,
        exists_eq_left'] at hdone
      obtain ⟨found, hfound, hdone⟩ := hdone
      have haccepted := (Kernel.convolution_contract params x w found).accepted_iff.mp
        ⟨result, hdone⟩
      obtain ⟨hxSingle, hwSingle, hsingle, hshape, hbias⟩ := haccepted
      have hbiasType : ∀ value ∈ bias,
          operand defined value = .ok ⟨.f32, Shape.vector (w.shape.dims.headD 0)⟩ := by
        intro value hvalue
        obtain rfl := Option.mem_def.mp hvalue
        obtain ⟨b, hb, hfoundType⟩ := hread value (by simp [NodeKind.operands])
        rw [Option.mapM_some, hb] at hfound
        have hsome : some b = found := Except.ok.inj hfound
        rw [hfoundType, hbias b (Option.mem_def.mpr hsome.symm)]
      have htype : convolutionType x.type w.type bias params (operand defined) =
          .ok output.type :=
        convolutionType_eq_ok_iff.mpr ⟨hxSingle, hwSingle, hsingle, hshape, hbiasType⟩
      exact ⟨output.type, by simp only [infer, hx, hw, htype, ok_bind]; rfl⟩
  | pooling input params =>
      obtain ⟨x, hinput, hx⟩ := hread input (by simp [NodeKind.operands])
      simp only [Engine.applyKernel, hinput, ok_bind] at hdone
      obtain ⟨hsingle, hshape⟩ := Kernel.outputShape_of_pooling hdone
      have hdtype : expectDType "pool" .f32 x.type.dtype = .ok () :=
        expectDType_eq_ok_iff.mpr hsingle.symm
      have hderived : derived (params.outputShape x.type.shape) = .ok output.shape :=
        derived_eq_ok_iff.mpr hshape
      exact ⟨⟨.f32, output.shape⟩, by simp only [infer, hx, hdtype, hderived, ok_bind]; rfl⟩
  | matrixProduct lhs rhs =>
      obtain ⟨a, hlhs, ha⟩ := hread lhs (by simp [NodeKind.operands])
      obtain ⟨b, hrhs, hb⟩ := hread rhs (by simp [NodeKind.operands])
      simp only [Engine.applyKernel, hlhs, hrhs, ok_bind] at hdone
      have htype : matrixProductType a.type b.type = .ok output.type :=
        matrixProductType_eq_ok_iff.mpr
          ((Kernel.matrixProduct_contract a b).accepted_iff.mp ⟨result, hdone⟩)
      exact ⟨output.type, by simp only [infer, ha, hb, htype, ok_bind]; rfl⟩
  | transpose input perm =>
      obtain ⟨x, hinput, hx⟩ := hread input (by simp [NodeKind.operands])
      simp only [Engine.applyKernel, hinput, ok_bind] at hdone
      obtain ⟨-, hshape⟩ := (Kernel.transpose_contract x perm).accepted_iff.mp ⟨result, hdone⟩
      have hderived : derived (Kernel.transposedShape x.type.shape perm) =
          .ok output.type.shape :=
        derived_eq_ok_iff.mpr hshape
      exact ⟨⟨x.dtype, output.shape⟩, by simp only [infer, hx, hderived, ok_bind]; rfl⟩
  | reshape input dims =>
      obtain ⟨x, hinput, hx⟩ := hread input (by simp [NodeKind.operands])
      simp only [Engine.applyKernel, hinput, ok_bind] at hdone
      obtain ⟨-, hcount⟩ := (Kernel.reshape_contract x).accepted_iff.mp ⟨result, hdone⟩
      have hcount : Shape.count ⟨dims⟩ = x.type.shape.count := by
        rw [← hdims dims rfl]
        exact hcount
      have htype : reshapeType x.type dims = .ok ⟨x.dtype, ⟨dims⟩⟩ :=
        reshapeType_eq_ok_iff.mpr ⟨rfl, hcount⟩
      exact ⟨⟨x.dtype, ⟨dims⟩⟩, by simp only [infer, hx, htype, ok_bind]; rfl⟩
  | slice input start size =>
      obtain ⟨x, hinput, hx⟩ := hread input (by simp [NodeKind.operands])
      simp only [Engine.applyKernel, hinput, ok_bind] at hdone
      obtain ⟨-, hfits⟩ := (Kernel.slice_contract x start).accepted_iff.mp ⟨result, hdone⟩
      have hsize : output.type.dims = size := congrArg Shape.dims (hdims size rfl)
      rw [hsize] at hfits
      have htype : sliceType x.type start size = .ok ⟨x.dtype, ⟨size⟩⟩ :=
        sliceType_eq_ok_iff.mpr ⟨rfl, hfits⟩
      exact ⟨⟨x.dtype, ⟨size⟩⟩, by simp only [infer, hx, htype, ok_bind]; rfl⟩
  | concat inputs axis =>
      simp only [Engine.applyKernel, bind_eq_ok_iff] at hdone
      obtain ⟨tensors, htensors, hdone⟩ := hdone
      have htypes : inputs.mapM (operand defined) = .ok (tensors.map Tensor.type) :=
        mapM_operand_of_mapM_read (fun value hvalue => operand_of_read (hread value hvalue)) htensors
      have hjoined := (Kernel.concat_contract tensors axis).accepted_iff.mp ⟨result, hdone⟩
      have htype : concatType (tensors.map Tensor.type) axis = .ok output.type := by
        apply concatType_eq_ok_iff.mpr
        simpa [Function.comp_def, Tensor.type] using hjoined
      exact ⟨output.type, by simp only [infer, htypes, htype, ok_bind]; rfl⟩
  | broadcast input axis dims =>
      obtain ⟨x, hinput, hx⟩ := hread input (by simp [NodeKind.operands])
      simp only [Engine.applyKernel, hinput, ok_bind] at hdone
      obtain ⟨-, hstretches⟩ := (Kernel.broadcast_contract x axis).accepted_iff.mp
        ⟨result, hdone⟩
      have hshape : output.type.shape = ⟨dims⟩ := hdims dims rfl
      rw [hshape] at hstretches
      have hderived : derived (Kernel.checkBroadcast axis x.type.shape ⟨dims⟩) = .ok () :=
        derived_eq_ok_iff.mpr hstretches
      exact ⟨⟨x.dtype, ⟨dims⟩⟩, by simp only [infer, hx, hderived, ok_bind]; rfl⟩
  | splat value type => exact ⟨type, rfl⟩
  | isNaN input =>
      obtain ⟨x, hinput, hx⟩ := hread input (by simp [NodeKind.operands])
      simp only [Engine.applyKernel, hinput, ok_bind] at hdone
      obtain ⟨hsingle, -⟩ := (Kernel.isNaN_contract x).accepted_iff.mp ⟨result, hdone⟩
      have hdtype : expectDType "is_nan" .f32 x.type.dtype = .ok () :=
        expectDType_eq_ok_iff.mpr hsingle.symm
      exact ⟨⟨.bool, x.shape⟩, by simp only [infer, hx, hdtype, ok_bind]; rfl⟩
  | select cond onTrue onFalse =>
      obtain ⟨c, hcond, hc⟩ := hread cond (by simp [NodeKind.operands])
      obtain ⟨a, htrue, ha⟩ := hread onTrue (by simp [NodeKind.operands])
      obtain ⟨b, hfalse, hb⟩ := hread onFalse (by simp [NodeKind.operands])
      simp only [Engine.applyKernel, hcond, htrue, hfalse, ok_bind] at hdone
      have htype : selectType c.type a.type b.type = .ok output.type :=
        selectType_eq_ok_iff.mpr
          ((Kernel.select_contract c a b).accepted_iff.mp ⟨result, hdone⟩)
      exact ⟨output.type, by simp only [infer, hc, ha, hb, htype, ok_bind]; rfl⟩
  | clip input low high =>
      obtain ⟨x, hinput, hx⟩ := hread input (by simp [NodeKind.operands])
      simp only [Engine.applyKernel, hinput, ok_bind] at hdone
      have htype : clipType x.type low high = .ok output.type :=
        clipType_eq_ok_iff.mpr
          ((Kernel.clip_contract x low high).accepted_iff.mp ⟨result, hdone⟩)
      exact ⟨output.type, by simp only [infer, hx, htype, ok_bind]; rfl⟩
  | arithmetic op lhs rhs =>
      obtain ⟨a, hlhs, ha⟩ := hread lhs (by simp [NodeKind.operands])
      obtain ⟨b, hrhs, hb⟩ := hread rhs (by simp [NodeKind.operands])
      simp only [Engine.applyKernel, hlhs, hrhs, ok_bind] at hdone
      have htype : arithmeticType op a.type b.type = .ok output.type :=
        arithmeticType_eq_ok_iff.mpr
          ((Kernel.arithmetic_contract op a b).accepted_iff.mp ⟨result, hdone⟩)
      exact ⟨output.type, by simp only [infer, ha, hb, htype, ok_bind]; rfl⟩
  | unary op input =>
      obtain ⟨x, hinput, hx⟩ := hread input (by simp [NodeKind.operands])
      simp only [Engine.applyKernel, hinput, ok_bind] at hdone
      obtain ⟨hsingle, -⟩ := (Kernel.unary_contract op x).accepted_iff.mp ⟨result, hdone⟩
      have hdtype : expectDType op.label .f32 x.type.dtype = .ok () :=
        expectDType_eq_ok_iff.mpr hsingle.symm
      exact ⟨x.type, by simp only [infer, hx, hdtype, ok_bind]; rfl⟩
  | softmax input =>
      obtain ⟨x, hinput, hx⟩ := hread input (by simp [NodeKind.operands])
      simp only [Engine.applyKernel, hinput, ok_bind] at hdone
      have htype : softmaxType x.type = .ok output.type :=
        softmaxType_eq_ok_iff.mpr
          ((Kernel.softmax_contract x).accepted_iff.mp ⟨result, hdone⟩)
      exact ⟨output.type, by simp only [infer, hx, htype, ok_bind]; rfl⟩
  | _ => exact hkind.elim

end Typing

/-- Typing and the kernels accept the same nodes.  A node that types has one result; its kernel
accepts every output of that type and leaves the type as it is, unless a pooling window begins
beyond the right edge of its input.  The kernel of a node that does not type refuses every
output, which must have the extents that the node declares, if it does.  In words both come to
the same, where the sums and products of the node are words. -/
theorem kernels_accept_what_types {kind : NodeKind} {defined : Array Node}
    {read : Handle → Except TensorError Tensor} (hkind : kind.Computes)
    (hread : ∀ value ∈ kind.operands, ∃ tensor, read value = .ok tensor ∧
      Typing.operand defined value = .ok tensor.type) :
    (∀ types, Typing.infer kind defined = .ok types → ∃ type, types = [type] ∧
      (kind.WithinEdge defined → ∀ output : Tensor, output.type = type →
        ∃ result, Engine.applyKernel kind read output = .ok result ∧ result.type = type)) ∧
    (∀ error, Typing.infer kind defined = .error error → ∀ output : Tensor,
      (∀ dims, kind.declaredDims? = some dims → output.shape = ⟨dims⟩) →
        ∃ cause, Engine.applyKernel kind read output = .error cause) ∧
    ∀ bits, kind.FitsWords bits defined →
      Typing.inferInWords bits kind defined = liftM (Typing.infer kind defined) ∧
      ∀ output : Tensor, (∀ dims, kind.declaredDims? = some dims → output.shape = ⟨dims⟩) →
        Engine.applyKernelInWords bits kind read output =
          liftM (Engine.applyKernel kind read output) := by
  refine ⟨?_, ?_, fun bits hwords => ⟨Typing.inferInWords_eq hwords, fun output hdims =>
    Engine.applyKernelInWords_eq (fun value hvalue => Typing.operand_of_read (hread value hvalue))
      hdims hwords⟩⟩
  · intro types hinfer
    have hone : ∃ type, types = [type] := by
      rcases Typing.results_of_infer hinfer with ⟨⟨input, target, hsave⟩, -⟩ | ⟨-, hone⟩
      · rw [hsave] at hkind
        exact hkind.elim
      · exact hone
    obtain ⟨type, rfl⟩ := hone
    refine ⟨type, rfl, fun hedge output houtput => ?_⟩
    have hoperands : ∀ value ∈ kind.operands, ∀ found,
        Typing.operand defined value = .ok found →
          ∃ tensor, read value = .ok tensor ∧ tensor.type = found := by
      intro value hvalue found hfound
      obtain ⟨tensor, htensor, htype⟩ := hread value hvalue
      exact ⟨tensor, htensor, Except.ok.inj (htype.symm.trans hfound)⟩
    obtain ⟨result, hdone⟩ :=
      Engine.exists_applyKernel hkind hinfer hedge hoperands houtput
    have hkept := (Engine.applyKernel_fillsOutput hkind read).keepsType hdone
    exact ⟨result, hdone, hkept.trans houtput⟩
  · intro error hinfer output hdims
    cases hdone : Engine.applyKernel kind read output with
    | error cause => exact ⟨cause, rfl⟩
    | ok result =>
        obtain ⟨type, htypes⟩ := Typing.exists_infer_of_applyKernel hkind hread hdims hdone
        rw [hinfer] at htypes
        cases htypes

/-- Two matrices, of which the product is defined and the sum is not. -/
def matrixNodes : Array Node :=
  #[⟨"a", .variable .placeholder ⟨.f32, ⟨[2, 3]⟩⟩, [⟨.f32, ⟨[2, 3]⟩⟩]⟩,
    ⟨"b", .variable .placeholder ⟨.f32, ⟨[3, 2]⟩⟩, [⟨.f32, ⟨[3, 2]⟩⟩]⟩]

def readMatrix (value : Handle) : Except TensorError Tensor :=
  .ok (Tensor.zeros .f32 (if value.node = 0 then ⟨[2, 3]⟩ else ⟨[3, 2]⟩))

theorem matrixNodes_product_and_sum :
    (∀ output : Tensor, output.type = ⟨.f32, ⟨[2, 2]⟩⟩ →
      ∃ result, Engine.applyKernel (.matrixProduct (.first 0) (.first 1)) readMatrix output =
        .ok result ∧ result.type = ⟨.f32, ⟨[2, 2]⟩⟩) ∧
    (∀ output : Tensor, ∃ cause,
      Engine.applyKernel (.arithmetic .add (.first 0) (.first 1)) readMatrix output =
        .error cause) ∧
    ∃ tensor : Tensor, Engine.applyKernelInWords 3 (.slice (.first 0) [1, 1] [1, 2]) readMatrix
      (Tensor.zeros .f32 ⟨[1, 2]⟩) = .ok tensor ∧ tensor.type = ⟨.f32, ⟨[1, 2]⟩⟩ := by
  have hread : ∀ value ∈ [Handle.first 0, Handle.first 1], ∃ tensor,
      readMatrix value = .ok tensor ∧
        Typing.operand matrixNodes value = .ok tensor.type := by
    intro value hvalue
    rcases List.mem_pair.mp hvalue with rfl | rfl
    · exact ⟨_, rfl, rfl⟩
    · exact ⟨_, rfl, rfl⟩
  have hproduct := @kernels_accept_what_types (.matrixProduct (.first 0) (.first 1))
    matrixNodes readMatrix trivial hread
  have hsum := @kernels_accept_what_types (.arithmetic .add (.first 0) (.first 1))
    matrixNodes readMatrix trivial hread
  have hslice := @kernels_accept_what_types (.slice (.first 0) [1, 1] [1, 2])
    matrixNodes readMatrix trivial fun value hvalue =>
      hread value (List.mem_cons.mpr (.inl (List.mem_singleton.mp hvalue)))
  refine ⟨?_, fun output => hsum.2.1 _ rfl output nofun, ?_⟩
  · obtain ⟨type, htype, haccepts⟩ := hproduct.1 [⟨.f32, ⟨[2, 2]⟩⟩] rfl
    obtain rfl := List.singleton_inj.mp htype
    exact haccepts nofun
  · obtain ⟨type, htype, haccepts⟩ := hslice.1 [⟨.f32, ⟨[1, 2]⟩⟩] rfl
    obtain rfl := List.singleton_inj.mp htype
    obtain ⟨tensor, hdone, hkept⟩ := haccepts nofun (Tensor.zeros .f32 ⟨[1, 2]⟩) rfl
    have hwords : NodeKind.FitsWords 3 (.slice (.first 0) [1, 1] [1, 2]) matrixNodes := by
      intro x hx
      obtain rfl : (⟨.f32, ⟨[2, 3]⟩⟩ : TensorType) = x := Except.ok.inj hx
      exact ⟨by decide, by decide⟩
    have hkernel := (hslice.2.2 3 hwords).2 (Tensor.zeros .f32 ⟨[1, 2]⟩) fun dims hdims =>
      congrArg Shape.mk (Option.some.inj hdims)
    rw [hdone] at hkernel
    exact ⟨tensor, hkernel, hkept⟩

/-- A slice of the first row of a matrix that begins at the last word of 64 bits. -/
def lateSlice : NodeKind := .slice (.first 0) [0, twoPow 64 - 1] [1, 1]

/-- In words of 64 bits its end is cut to nothing: it types, and its kernel reads outside of the
matrix.  A broadcast that begins at the last word has no place in its target at all. -/
theorem lateSlice_types_and_faults :
    (∃ error, Typing.infer lateSlice matrixNodes = .error error) ∧
      Typing.inferInWords 64 lateSlice matrixNodes = .ok [⟨.f32, ⟨[1, 1]⟩⟩] ∧
      Engine.applyKernelInWords 64 lateSlice readMatrix (Tensor.zeros .f32 ⟨[1, 1]⟩) =
        .error .fault ∧
      (∃ error, Typing.infer (.broadcast (.first 0) (twoPow 64 - 1) [2, 3]) matrixNodes =
        .error error) ∧
      Typing.inferInWords 64 (.broadcast (.first 0) (twoPow 64 - 1) [2, 3]) matrixNodes =
        .error .fault :=
  ⟨⟨_, rfl⟩, rfl, rfl, ⟨_, rfl⟩, rfl⟩

end NetImport
