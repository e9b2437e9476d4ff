import NetImport.Proofs.Lowering.Safety

/-!
# Every operator is safe

Every lowering looks up values that are bound or that it has built, so that none of them is
missing, and every look into a list of extents is behind a check of its length.
-/

namespace NetImport
namespace Lowering

variable {op : Operator} {work : Workspace} {value : Handle}

/-! ## Elementwise operators -/

theorem safe_clip : IsSafe (clip op) work := by
  refine safe_bind_look (looks_input 0) fun value hvalue => ?_
  refine safe_bind_look (looks_typeOf hvalue) fun type _ => ?_
  refine safe_bind_look (looks_ofExcept (op.numberArg?_properly "min")) fun low _ => ?_
  refine safe_bind_look (looks_ofExcept (op.numberArg?_properly "max")) fun high _ => ?_
  exact safe_build_bindOutput (fun _ => rfl) trivial (by simpa [NodeKind.operands])

theorem safe_replaceNaN : IsSafe (replaceNaN op) work := by
  refine safe_bind_look (looks_input 0) fun value hvalue => ?_
  refine safe_bind_look (looks_typeOf hvalue) fun type _ => ?_
  extract_lets rest
  have hrest (checked : Unit) : IsSafe (rest checked) work := by
    refine safe_bind_look (looks_ofExcept (op.singleArg?_properly "value")) fun fill _ => ?_
    refine safe_build_bind (fun _ => rfl) trivial (by simpa [NodeKind.operands]) ?_
    intro mask afterMask hafterMask hmask
    refine safe_build_bind (fun _ => rfl) trivial (List.forall_mem_nil _) ?_
    intro splat afterSplat hafterSplat hsplat
    refine safe_build_bindOutput (fun _ => rfl) trivial ?_
    have hgrows := hafterMask.trans hafterSplat
    simpa [NodeKind.operands] using
      ⟨hafterSplat.resolves hmask, hsplat, hgrows.resolves hvalue⟩
  refine safe_ite (fun _ => safe_throw_bind ?_) fun _ => hrest ()
  simp [shapeError, LoadError.Proper, OtherDetail, toString_string]

theorem safe_unary (fn : UnaryOp) : IsSafe (unary fn op) work := by
  refine safe_bind_look (looks_input 0) fun value hvalue => ?_
  exact safe_build_bindOutput (fun _ => rfl) trivial (by simpa [NodeKind.operands])

theorem safe_softmax : IsSafe (softmax op) work := by
  refine safe_bind_look (looks_input 0) fun value hvalue => ?_
  refine safe_bind_look (looks_dimsOf hvalue) fun dims _ => ?_
  refine safe_bind_look (looks_ofExcept (op.intArg_properly "axis" 1)) fun axis _ => ?_
  refine safe_bind_look looks_canonicalAxis fun place hplace => ?_
  refine safe_bind_look (looks_matrixDims (Nat.le_of_lt hplace)) fun matrix _ => ?_
  refine safe_bind (safe_reshapeTo hvalue _) fun flat afterFlat _ hflat => ?_
  refine safe_build_bind (fun _ => rfl) trivial (by simpa [NodeKind.operands]) ?_
  intro result afterRows _ hresult
  exact safe_bind (safe_reshapeTo hresult _) fun last next _ hlast => safe_bindOutput hlast 0

theorem looks_broadcastAxis (axis : Int) (a b : List Nat) :
    Looks (broadcastAxis op axis a b) work fun _ => True := by
  unfold broadcastAxis
  extract_lets last rest
  have hlast (axis : Nat) : Looks (last axis) work fun _ => True := by
    refine looks_ite (fun _ => looks_throw_bind ?_) fun _ => looks_of_run rfl trivial
    simp [shapeError, LoadError.Proper, OtherDetail, Kernel.listText, bracketed, toString_string]
  have hrest (checked : Unit) (hrank : ¬a.length < b.length) :
      Looks (rest checked) work fun _ => True := by
    refine looks_ite (fun _ => ?_) fun _ => looks_ite (fun _ => ?_) fun _ => ?_
    · have hdifference : Looks (difference op a.length b.length) work fun _ => True :=
        looks_of_run (run_difference (Nat.le_of_not_lt hrank)) trivial
      exact looks_bind hdifference fun axis _ => hlast axis
    · exact looks_throw_bind trivial
    · have hgiven : Looks (pure axis.toNat) work fun _ => True := looks_of_run rfl trivial
      exact looks_bind hgiven fun axis _ => hlast axis
  refine looks_ite (fun _ => looks_throw_bind ?_) fun hrank => hrest () hrank
  simp [shapeError, LoadError.Proper, OtherDetail, toString_string]

theorem safe_arithmetic (fn : ArithmeticOp) : IsSafe (arithmetic fn op) work := by
  refine safe_bind_look (looks_ofExcept (op.flagArg_properly "broadcast")) fun broadcast _ => ?_
  refine safe_bind_look (looks_ofExcept (op.intArg_properly "axis" (-1))) fun axis _ => ?_
  refine safe_bind_look (looks_input 0) fun lhs hlhs => ?_
  refine safe_bind_look (looks_input 1) fun rhs hrhs => ?_
  refine safe_bind_look (looks_dimsOf hlhs) fun a _ => ?_
  refine safe_bind_look (looks_dimsOf hrhs) fun b _ => ?_
  extract_lets rest
  have hrest (rhs : Handle) (next : Workspace) (hnext : work.Grows next)
      (hrhs : next.graph.Resolves rhs) : IsSafe (rest rhs) next := by
    refine safe_build_bindOutput (fun _ => rfl) trivial ?_
    simpa [NodeKind.operands] using ⟨hnext.resolves hlhs, hrhs⟩
  refine safe_ite (fun _ => ?_) fun _ => hrest rhs work .refl hrhs
  refine safe_bind_look (looks_broadcastAxis axis a b) fun place _ => ?_
  exact safe_build_bind (fun _ => rfl) trivial (by simpa [NodeKind.operands]) hrest

theorem safe_addAll (position : Nat) (total : Handle) (values : List Handle)
    (htotal : work.graph.Resolves total) (hvalues : ∀ value ∈ values, work.graph.Resolves value) :
    Safe (addAll op position total values) work fun total last => last.graph.Resolves total := by
  induction values generalizing position total work with
  | nil => exact safe_pure htotal
  | cons value values ih =>
      rw [List.forall_mem_cons] at hvalues
      refine safe_build_bind (fun _ => rfl) trivial ?_ fun total next hnext htotal => ?_
      · simpa [NodeKind.operands] using ⟨htotal, hvalues.1⟩
      · exact ih _ total htotal fun value hmem => hnext.resolves (hvalues.2 value hmem)

theorem safe_sum : IsSafe (sum op) work := by
  refine safe_bind_look looks_allInputs fun values hvalues => ?_
  cases values with
  | nil => exact absurd rfl hvalues.1
  | cons first others =>
      obtain ⟨hfirst, hothers⟩ := List.forall_mem_cons.mp hvalues.2
      exact safe_bind (safe_addAll 1 first others hfirst hothers) fun total next _ htotal =>
        safe_bindOutput htotal 0

/-! ## Layout operators -/

theorem safe_expandAll (dims : List Nat) (position : Nat) (values : List Handle)
    (hvalues : ∀ value ∈ values, work.graph.Resolves value) :
    Safe (expandAll op dims position values) work fun expanded last =>
      ∀ value ∈ expanded, last.graph.Resolves value := by
  induction values generalizing position work with
  | nil => exact safe_pure (List.forall_mem_nil _)
  | cons value values ih =>
      rw [List.forall_mem_cons] at hvalues
      refine safe_build_bind (fun _ => rfl) trivial (List.forall_mem_singleton.mpr hvalues.1) ?_
      intro expanded next hnext hexpanded
      refine safe_bind (ih _ fun value hmem => hnext.resolves (hvalues.2 value hmem)) ?_
      intro others last hlast hothers
      exact safe_pure (List.forall_mem_cons.mpr ⟨hlast.resolves hexpanded, hothers⟩)

theorem safe_stack {values : List Handle} {dims : List Nat} {axis : Nat}
    (hvalues : ∀ value ∈ values, work.graph.Resolves value) (haxis : axis ≤ dims.length) :
    Safe (stack op values dims axis) work fun value last => last.graph.Resolves value := by
  refine safe_bind_of_run (run_splitAt haxis) ?_
  refine safe_ite (fun _ => ?_) fun _ => ?_
  · refine safe_build_bind (fun _ => rfl) trivial hvalues fun joined next _ hjoined => ?_
    exact safe_build_value (fun _ => rfl) trivial (by simpa [NodeKind.operands])
  · refine safe_bind (safe_expandAll _ 0 values hvalues) fun expanded next _ hexpanded => ?_
    exact safe_build_value (fun _ => rfl) trivial hexpanded

theorem safe_concat : IsSafe (concat op) work := by
  refine safe_bind_look (looks_ofExcept (op.flagArg_properly "add_axis")) fun addAxis _ => ?_
  refine safe_bind_look (looks_ofExcept (concatAxis_properly op)) fun axis _ => ?_
  refine safe_bind_look looks_allInputs fun values hvalues => ?_
  refine safe_bind_look (looks_mapM fun value hmem => looks_dimsOf (hvalues.2 value hmem)) ?_
  intro shapes hshapes
  cases shapes with
  | nil => exact absurd (List.forall₂_nil_right_iff.mp hshapes) hvalues.1
  | cons first others =>
      extract_lets rest
      have hrest (joined : Handle × List Nat) (next : Workspace)
          (hjoined : next.graph.Resolves joined.1) : IsSafe (rest joined) next := by
        refine safe_bind (safe_bindOutput hjoined 0) fun _ last _ _ => ?_
        refine safe_ite (fun _ => ?_) fun _ => safe_pure trivial
        refine safe_bind_look (looks_ofExcept (splitInfo_properly op _)) fun tensor _ => ?_
        exact safe_bindConstantOutput 1 tensor
      refine safe_ite (fun _ => ?_) fun _ => ?_
      · refine safe_bind_look looks_canonicalAxis fun place hplace => ?_
        split
        · refine safe_throw_bind ?_
          simp [shapeError, LoadError.Proper, OtherDetail, toString_string]
        · refine safe_bind (safe_stack hvalues.2 (Nat.le_of_lt_succ hplace)) ?_
          intro value next _ hvalue
          exact safe_bind_of_run rfl (hrest (value, _) next hvalue)
      · refine safe_bind_look looks_canonicalAxis fun place _ => ?_
        refine safe_build_bind (fun _ => rfl) trivial hvalues.2 fun value next _ hvalue => ?_
        exact safe_bind_of_run rfl (hrest (value, _) next hvalue)

theorem safe_transpose : IsSafe (transpose op) work := by
  refine safe_bind_look (looks_input 0) fun value hvalue => ?_
  refine safe_bind_look (looks_dimsOf hvalue) fun dims _ => ?_
  refine safe_bind_look (looks_ofExcept (op.naturalsArg?_properly "axes")) fun axes _ => ?_
  exact safe_build_bindOutput (fun _ => rfl) trivial (by simpa [NodeKind.operands])

theorem looks_requestedExtents : Looks (requestedExtents op) work fun _ => True := by
  refine looks_bind (looks_ofExcept (op.intsArg?_properly "shape")) fun given _ => ?_
  cases given with
  | some spec => exact looks_of_run rfl trivial
  | none =>
      refine looks_bind (looks_input 1) fun source _ => ?_
      refine looks_bind (looks_constant? source) fun payload _ => ?_
      cases payload with
      | none => exact looks_throw trivial
      | some tensor =>
          dsimp only
          split
          · exact looks_of_run rfl trivial
          · exact looks_throw trivial

theorem safe_reshape : IsSafe (reshape op) work := by
  refine safe_bind_look (looks_input 0) fun value hvalue => ?_
  refine safe_bind_look (looks_dimsOf hvalue) fun dims _ => ?_
  refine safe_bind_look looks_requestedExtents fun spec _ => ?_
  refine safe_bind_look (looks_ofExcept (resolveExtents_properly op dims spec)) fun target _ => ?_
  refine safe_build_bind (fun _ => rfl) trivial (by simpa [NodeKind.operands]) ?_
  intro reshaped next _ hreshaped
  refine safe_bind (safe_bindOutput hreshaped 0) fun _ last _ _ => ?_
  exact safe_ite (fun _ => safe_bindConstantOutput 1 _) fun _ => safe_pure trivial

theorem safe_flatten : IsSafe (flatten op) work := by
  refine safe_bind_look (looks_input 0) fun value hvalue => ?_
  refine safe_bind_look (looks_dimsOf hvalue) fun dims _ => ?_
  refine safe_bind_look (looks_ofExcept (op.naturalArg_properly "axis" 1)) fun axis _ => ?_
  refine safe_ite (fun _ => safe_throw_bind trivial) fun haxis => ?_
  refine safe_bind_look (looks_matrixDims (Nat.le_of_not_lt haxis)) fun matrix _ => ?_
  exact safe_build_bindOutput (fun _ => rfl) trivial (by simpa [NodeKind.operands])

theorem safe_dropout : IsSafe (dropout op) work :=
  safe_bind_look (looks_input 0) fun _ hvalue => safe_bindOutput hvalue 0

/-! ## Matrix products -/

theorem safe_transposeMatrix {suffix : String} (hvalue : work.graph.Resolves value) :
    Safe (transposeMatrix op value suffix) work fun value last => last.graph.Resolves value :=
  safe_build_value (fun _ => rfl) trivial (by simpa [NodeKind.operands])

/-- A value that is split at an axis has more axes than that. -/
theorem safe_flattenAt {arg suffix : String} {axis : Nat} {type : TensorType}
    (htype : work.graph.valueType value = .ok type) :
    Safe (flattenAt op value arg axis suffix) work fun value last =>
      last.graph.Resolves value ∧ axis ≤ type.dims.length := by
  refine safe_bind_of_run (run_dimsOf htype) ?_
  refine safe_ite (fun _ => safe_throw_bind trivial) fun haxis => ?_
  have hbelow : axis ≤ type.dims.length := by omega
  refine safe_bind_look (looks_matrixDims hbelow) fun matrix _ => ?_
  exact (safe_reshapeTo ⟨type, htype⟩ matrix).mono fun hvalue => ⟨hvalue, hbelow⟩

/-- The product of two matrices is a matrix. -/
theorem dims_of_infer_matrixProduct {lhs rhs : Handle} {defined : Array Node} {type : TensorType}
    (hinfer : Typing.infer (.matrixProduct lhs rhs) defined = .ok [type]) :
    type.dims.length = 2 := by
  simp only [Typing.infer, bind_eq_ok_iff, pure_eq_ok_iff] at hinfer
  obtain ⟨a, -, b, -, t, hproduct, htypes⟩ := hinfer
  obtain rfl := List.singleton_inj.mp htypes
  obtain ⟨-, -, m, k, n, -, -, rfl⟩ := Typing.matrixProductType_eq_ok_iff.mp hproduct
  rfl

theorem safe_matrixProduct {lhs rhs : Handle} {name : String} (hlhs : work.graph.Resolves lhs)
    (hrhs : work.graph.Resolves rhs) :
    Safe (build op fun graph => graph.matrixProduct name lhs rhs) work fun value last =>
      last.HasRank 2 value := by
  refine Safe.mono (safe_build (fun _ => rfl) trivial ?_) fun hresult => ?_
  · simpa [NodeKind.operands] using ⟨hlhs, hrhs⟩
  · obtain ⟨type, hinfer, htype⟩ := hresult
    exact ⟨type, htype, dims_of_infer_matrixProduct hinfer⟩

theorem safe_matMul : IsSafe (matMul op) work := by
  refine safe_bind_look (looks_ofExcept (op.flagArg_properly "trans_a")) fun transA _ => ?_
  refine safe_bind_look (looks_ofExcept (op.flagArg_properly "trans_b")) fun transB _ => ?_
  refine safe_bind_look (looks_ofExcept (op.naturalArg_properly "axis_a" 1)) fun axisA _ => ?_
  refine safe_bind_look (looks_ofExcept (op.naturalArg_properly "axis_b" 1)) fun axisB _ => ?_
  refine safe_bind_look (looks_input 0) fun a ha => ?_
  refine safe_bind_look (looks_input 1) fun b hb => ?_
  obtain ⟨type, htype⟩ := ha
  refine safe_bind (safe_flattenAt htype) fun a afterLhs hafterLhs ha => ?_
  obtain ⟨type', htype'⟩ := hafterLhs.resolves hb
  refine safe_bind (safe_flattenAt htype') fun b afterRhs hafterRhs hb => ?_
  extract_lets rest
  have hrest (a : Handle) (next : Workspace) (hnext : afterRhs.Grows next)
      (ha : next.graph.Resolves a) : IsSafe (rest a) next := by
    unfold rest
    extract_lets last
    have hlast (b : Handle) (later : Workspace) (hlater : next.Grows later)
        (hb : later.graph.Resolves b) : IsSafe (last b) later :=
      safe_bind (safe_matrixProduct (hlater.resolves ha) hb) fun result last _ hresult =>
        safe_bindOutput hresult.resolves 0
    have hright := hnext.resolves hb.1
    exact safe_ite (fun _ => safe_bind (safe_transposeMatrix hright) hlast)
      fun _ => hlast b next .refl hright
  have hleft := hafterRhs.resolves ha.1
  exact safe_ite (fun _ => safe_bind (safe_transposeMatrix hleft) hrest)
    fun _ => hrest a afterRhs .refl hleft

theorem safe_fullyConnected (weightTransposed : Bool) :
    IsSafe (fullyConnected weightTransposed op) work := by
  refine safe_bind_look (looks_ofExcept (op.naturalArg_properly "axis" 1)) fun axis _ => ?_
  refine safe_bind_look (looks_ofExcept (op.naturalArg_properly "axis_w" 1)) fun axisW _ => ?_
  refine safe_bind_look (looks_input 0) fun x hx => ?_
  refine safe_bind_look (looks_input 1) fun w hw => ?_
  refine safe_bind_look (looks_input 2) fun bias hbias => ?_
  obtain ⟨type, htype⟩ := hx
  refine safe_bind_of_run (run_dimsOf htype) ?_
  refine safe_bind (safe_flattenAt htype) fun x afterX hafterX hx => ?_
  obtain ⟨type', htype'⟩ := hafterX.resolves hw
  refine safe_bind (safe_flattenAt htype') fun w afterW hafterW hw => ?_
  extract_lets rest
  have hrest (w : Handle) (next : Workspace) (hnext : afterW.Grows next)
      (hw : next.graph.Resolves w) : IsSafe (rest w) next := by
    have hgrows := hafterW.trans hnext
    refine safe_bind (safe_matrixProduct (hgrows.resolves hx.1) hw) ?_
    intro result afterProduct hafterProduct hresult
    obtain ⟨matrix, hmatrix, hrank⟩ := hresult
    refine safe_bind_of_run (run_dimsOf hmatrix) ?_
    refine safe_build_bind (fun _ => rfl) trivial (List.forall_mem_singleton.mpr
      (((hafterX.trans hgrows).trans hafterProduct).resolves hbias)) ?_
    intro row afterRow hafterRow hrow
    refine safe_build_bind (fun _ => rfl) trivial ?_ fun total afterTotal _ htotal => ?_
    · simpa [NodeKind.operands] using ⟨hafterRow.resolves ⟨matrix, hmatrix⟩, hrow⟩
    · refine safe_bind_of_run (run_splitAt hx.2) ?_
      refine safe_bind_look (looks_extentAt (by omega)) fun columns _ => ?_
      exact safe_bind (safe_reshapeTo htotal _) fun last next _ hlast => safe_bindOutput hlast 0
  exact safe_ite (fun _ => hrest w afterW .refl hw.1)
    fun _ => safe_bind (safe_transposeMatrix hw.1) hrest

namespace BatchOperand

variable {operand : BatchOperand}

theorem looks_read {transposed : Bool} (hvalue : work.graph.Resolves value) :
    Looks (read op value transposed) work fun operand => operand.value = value := by
  refine looks_bind (looks_dimsOf hvalue) fun dims _ => ?_
  refine looks_ite (fun _ => looks_throw_bind ?_) fun hrank => ?_
  · simp [shapeError, LoadError.Proper, OtherDetail, toString_string]
  · have hdifference : Looks (difference op dims.length 2) work (· = dims.length - 2) :=
      looks_of_run (run_difference (by omega)) rfl
    refine looks_bind hdifference ?_
    rintro axis rfl
    have hparts : Looks (splitAt op dims (dims.length - 2)) work fun _ => True :=
      looks_of_run (run_splitAt (by omega)) trivial
    refine looks_bind hparts fun parts _ => ?_
    refine looks_bind (looks_extentAt (by omega)) fun rows _ => ?_
    refine looks_bind (looks_extentAt (by omega)) fun columns _ => ?_
    exact looks_of_run rfl rfl

theorem safe_oriented {matrix : Handle} {name : String} (hmatrix : work.graph.Resolves matrix) :
    Safe (operand.oriented op matrix name) work fun value last => last.graph.Resolves value :=
  safe_ite (fun _ => safe_transposeMatrix hmatrix) fun _ => safe_pure hmatrix

theorem safe_toMatrix {side : String} (hvalue : work.graph.Resolves operand.value) :
    Safe (operand.toMatrix op side) work fun value last => last.graph.Resolves value :=
  safe_bind (safe_reshapeTo hvalue _) fun _ _ _ => safe_oriented

theorem safe_matrixAt {flat : Handle} {position : Nat} {side : String}
    (hflat : work.graph.Resolves flat) :
    Safe (operand.matrixAt op flat position side) work fun value last =>
      last.graph.Resolves value := by
  refine safe_build_bind (fun _ => rfl) trivial (List.forall_mem_singleton.mpr hflat) ?_
  intro slice afterSlice _ hslice
  refine safe_build_bind (fun _ => rfl) trivial (List.forall_mem_singleton.mpr hslice) ?_
  exact fun matrix next _ => safe_oriented

end BatchOperand

/-- The value that matrices are taken from. -/
def MatrixSource.handle : MatrixSource → Handle
  | .sliced flat => flat
  | .shared matrix => matrix

theorem safe_matrixSource {operand : BatchOperand} {count : Nat} {side : String}
    (hvalue : work.graph.Resolves operand.value) :
    Safe (matrixSource op operand count side) work fun source last =>
      last.graph.Resolves source.handle := by
  refine safe_ite (fun _ => ?_) fun _ => ?_
  · exact safe_bind (BatchOperand.safe_toMatrix hvalue) fun matrix last _ hmatrix =>
      safe_pure hmatrix
  · exact safe_bind (safe_reshapeTo hvalue _) fun flat last _ hflat => safe_pure hflat

theorem safe_matrixFrom {operand : BatchOperand} {source : MatrixSource} {position : Nat}
    {side : String} (hsource : work.graph.Resolves source.handle) :
    Safe (matrixFrom op operand source position side) work fun value last =>
      last.graph.Resolves value := by
  cases source with
  | sliced flat => exact BatchOperand.safe_matrixAt hsource
  | shared matrix => exact safe_pure hsource

theorem safe_productPerPosition {lhs rhs : BatchOperand} {batch : List Nat}
    (hlhs : work.graph.Resolves lhs.value) (hrhs : work.graph.Resolves rhs.value) :
    Safe (productPerPosition op lhs rhs batch) work fun value last =>
      last.graph.Resolves value := by
  refine safe_bind (safe_matrixSource hlhs) fun lhsSource afterLhs hafterLhs hlhsSource => ?_
  refine safe_bind (safe_matrixSource (hafterLhs.resolves hrhs)) ?_
  intro rhsSource afterRhs hafterRhs hrhsSource
  refine safe_bind (safe_mapM (fun value last => last.HasRank 2 value) .mono ?_) ?_
  · intro position _ next hnext
    have hleft := (hafterRhs.trans hnext).resolves hlhsSource
    refine safe_bind (safe_matrixFrom hleft) fun a afterA hafterA ha => ?_
    have hright := (hnext.trans hafterA).resolves hrhsSource
    refine safe_bind (safe_matrixFrom hright) fun b afterB hafterB hb => ?_
    exact safe_matrixProduct (hafterB.resolves ha) hb
  · intro products next _ hproducts
    cases products with
    | nil =>
        refine safe_throw ?_
        simp [shapeError, LoadError.Proper, OtherDetail]
    | cons first others =>
        obtain ⟨type, htype, hrank⟩ := hproducts first (List.mem_cons_self ..)
        refine safe_bind_of_run (run_dimsOf htype) ?_
        refine safe_bind_look (looks_extentAt (by omega)) fun rows _ => ?_
        refine safe_bind_look (looks_extentAt (by omega)) fun columns _ => ?_
        refine safe_build_bind (fun _ => rfl) trivial
          (fun value hmem => (hproducts value hmem).resolves) fun joined last _ hjoined => ?_
        exact safe_build_value (fun _ => rfl) trivial (List.forall_mem_singleton.mpr hjoined)

theorem safe_productWithSingle {lhs rhs : BatchOperand} (hlhs : work.graph.Resolves lhs.value)
    (hrhs : work.graph.Resolves rhs.value) :
    Safe (productWithSingle op lhs rhs) work fun value last => last.graph.Resolves value := by
  unfold productWithSingle
  extract_lets axes rank units rest
  have hrest (a : Handle) (next : Workspace) (hnext : work.Grows next)
      (ha : next.graph.Resolves a) :
      Safe (rest a) next fun value last => last.graph.Resolves value := by
    refine safe_bind (safe_reshapeTo ha _) fun a afterA hafterA ha => ?_
    have hright := (hnext.trans hafterA).resolves hrhs
    refine safe_bind (BatchOperand.safe_toMatrix hright) fun b afterB hafterB hb => ?_
    refine safe_bind (safe_matrixProduct (hafterB.resolves ha) hb) fun result last _ hresult => ?_
    obtain ⟨type, htype, hmatrix⟩ := hresult
    refine safe_bind_of_run (run_dimsOf htype) ?_
    refine safe_bind_look (looks_extentAt (by omega)) fun columns _ => ?_
    exact safe_reshapeTo ⟨type, htype⟩ _
  refine safe_ite (fun _ => ?_) fun _ => hrest lhs.value work .refl hlhs
  exact safe_build_bind (fun _ => rfl) trivial (List.forall_mem_singleton.mpr hlhs) hrest

theorem safe_batchProduct {broadcast : Bool} {lhs rhs : BatchOperand}
    (hlhs : work.graph.Resolves lhs.value) (hrhs : work.graph.Resolves rhs.value) :
    Safe (batchProduct op broadcast lhs rhs) work fun value last => last.graph.Resolves value := by
  unfold batchProduct
  refine safe_ite (fun _ => safe_throw_bind ?_) fun _ => ?_
  · simp [shapeError, LoadError.Proper, OtherDetail, toString_string]
  refine safe_ite (fun _ => ?_) fun _ => safe_ite (fun _ => ?_) fun _ =>
    safe_ite (fun _ => ?_) fun _ => safe_ite (fun _ => ?_) fun _ =>
    safe_ite (fun _ => ?_) fun _ => ?_
  · refine safe_bind (BatchOperand.safe_toMatrix hlhs) fun a afterA hafterA ha => ?_
    refine safe_bind (BatchOperand.safe_toMatrix (hafterA.resolves hrhs)) ?_
    intro b afterB hafterB hb
    exact (safe_matrixProduct (hafterB.resolves ha) hb).mono Workspace.HasRank.resolves
  · exact safe_productPerPosition hlhs hrhs
  · refine safe_throw ?_
    simp [shapeError, LoadError.Proper, OtherDetail, toString_string]
  · exact safe_productWithSingle hlhs hrhs
  · exact safe_productPerPosition hlhs hrhs
  · refine safe_throw ?_
    simp [shapeError, LoadError.Proper, OtherDetail, toString_string]

theorem safe_batchMatMul : IsSafe (batchMatMul op) work := by
  refine safe_bind_look (looks_ofExcept (op.flagArg_properly "trans_a")) fun transA _ => ?_
  refine safe_bind_look (looks_ofExcept (op.flagArg_properly "trans_b")) fun transB _ => ?_
  refine safe_bind_look (looks_ofExcept (op.flagArg_properly "broadcast")) fun broadcast _ => ?_
  refine safe_bind_look (looks_input 0) fun a ha => ?_
  refine safe_bind_look (looks_input 1) fun b hb => ?_
  refine safe_bind_look (BatchOperand.looks_read ha) fun lhs hlhs => ?_
  refine safe_bind_look (BatchOperand.looks_read hb) fun rhs hrhs => ?_
  subst hlhs hrhs
  exact safe_bind (safe_batchProduct ha hb) fun value next _ hvalue => safe_bindOutput hvalue 0

/-! ## Convolution and pooling -/

theorem dims_of_infer_transpose {input : Handle} {perm : List Nat} {defined : Array Node}
    {type : TensorType} (hinfer : Typing.infer (.transpose input perm) defined = .ok [type]) :
    type.dims.length = perm.length := by
  simp only [Typing.infer, bind_eq_ok_iff, pure_eq_ok_iff, Typing.derived_eq_ok_iff] at hinfer
  obtain ⟨x, -, shape, hshape, htypes⟩ := hinfer
  obtain rfl := List.singleton_inj.mp htypes
  unfold Kernel.transposedShape at hshape
  split at hshape
  · obtain rfl := Except.ok.inj hshape
    exact List.length_map ..
  · cases hshape

/-- The subject of the refusal is one of two words. -/
theorem looks_requireRankFour {what : String} (hvalue : work.graph.Resolves value)
    (hwhat : ∀ detail, OtherDetail (what ++ detail)) :
    Looks (requireRankFour op what value) work fun _ => work.HasRank 4 value := by
  refine looks_bind (looks_dimsOf hvalue) fun dims hdims => ?_
  obtain ⟨dtype, htype⟩ := hdims
  refine looks_ite (fun _ => looks_throw ?_) fun hrank => ?_
  · have hdetail := hwhat (" must be 4-D, got " ++ Kernel.listText dims)
    rwa [← String.append_assoc] at hdetail
  · exact looks_of_run rfl ⟨_, htype, not_not.mp hrank⟩

theorem safe_toChannelsFirst {order : StorageOrder} {suffix : String}
    (hvalue : work.HasRank 4 value) :
    Safe (toChannelsFirst op order value suffix) work fun value last => last.HasRank 4 value := by
  cases order with
  | channelsFirst => exact safe_pure hvalue
  | channelsLast =>
      refine Safe.mono (safe_build (fun _ => rfl) trivial ?_) fun hresult => ?_
      · exact List.forall_mem_singleton.mpr hvalue.resolves
      · obtain ⟨type, hinfer, htype⟩ := hresult
        exact ⟨type, htype, dims_of_infer_transpose hinfer⟩

theorem looks_imagePlane (hvalue : work.HasRank 4 value) :
    Looks (imagePlane op value) work fun _ => True := by
  obtain ⟨type, htype, hrank⟩ := hvalue
  have hdims : Looks (dimsOf op value) work (· = type.dims) :=
    looks_of_run (run_dimsOf htype) rfl
  refine looks_bind hdims ?_
  rintro dims rfl
  refine looks_bind (looks_extentAt (by omega)) fun height _ => ?_
  refine looks_bind (looks_extentAt (by omega)) fun width _ => ?_
  exact looks_of_run rfl trivial

theorem safe_bindResult {order : StorageOrder} (hvalue : work.graph.Resolves value) :
    IsSafe (bindResult op order value) work := by
  cases order with
  | channelsFirst => exact safe_bindOutput hvalue 0
  | channelsLast =>
      exact safe_build_bindOutput (fun _ => rfl) trivial (List.forall_mem_singleton.mpr hvalue)

theorem safe_convolution : IsSafe (convolution op) work := by
  refine safe_bind_look (looks_ofExcept (storageOrder_properly op)) fun order _ => ?_
  refine safe_bind_look (looks_ofExcept (windowArgs_properly op)) fun window _ => ?_
  refine safe_bind_look (looks_ofExcept (op.naturalArg_properly "group" 1)) fun group _ => ?_
  refine safe_bind_look (looks_input 0) fun value hvalue => ?_
  refine safe_bind_look (looks_input 1) fun filter hfilter => ?_
  refine safe_bind_look (looks_optionalInput 2) fun bias hbias => ?_
  refine safe_bind_look (looks_requireRankFour hvalue ?_) fun _ hvalue => ?_
  · simp [OtherDetail]
  refine safe_bind_look (looks_requireRankFour hfilter ?_) fun _ hfilter => ?_
  · simp [OtherDetail]
  refine safe_bind (safe_toChannelsFirst hvalue) fun value afterValue hafterValue hvalue => ?_
  refine safe_bind (safe_toChannelsFirst (hfilter.mono hafterValue)) ?_
  intro filter afterFilter hafterFilter hfilter
  refine safe_bind_look (looks_imagePlane hfilter) fun plane _ => ?_
  refine safe_build_bind (fun _ => rfl) trivial ?_ fun result last _ hresult =>
    safe_bindResult hresult
  have hgrows := hafterValue.trans hafterFilter
  simp only [NodeKind.operands, List.forall_mem_cons, Option.mem_toList]
  exact ⟨hafterFilter.resolves hvalue.resolves, hfilter.resolves,
    fun found hfound => hgrows.resolves (hbias found hfound)⟩

theorem safe_pooling (mode : PoolMode) : IsSafe (pooling mode op) work := by
  refine safe_bind_look (looks_ofExcept (storageOrder_properly op)) fun order _ => ?_
  refine safe_bind_look (looks_ofExcept (windowArgs_properly op)) fun args _ => ?_
  refine safe_bind_look (looks_ofExcept (op.flagArg_properly "global_pooling")) fun global _ => ?_
  refine safe_bind_look (looks_input 0) fun value hvalue => ?_
  refine safe_bind_look (looks_requireRankFour hvalue ?_) fun _ hvalue => ?_
  · simp [OtherDetail]
  refine safe_bind (safe_toChannelsFirst hvalue) fun value next hnext hvalue => ?_
  refine safe_bind_look (looks_imagePlane hvalue) fun plane _ => ?_
  extract_lets rest
  have hrest (window : Window) : IsSafe (rest window) next := by
    refine safe_build_bind (fun _ => rfl) trivial ?_ fun result last _ hresult =>
      safe_bindResult hresult
    exact List.forall_mem_singleton.mpr hvalue.resolves
  refine safe_ite (fun _ => hrest _) fun _ => ?_
  split
  · exact hrest _
  · exact safe_throw_bind trivial

/-! ## Every operator -/

theorem safe_ofKind (kind : OperatorKind) : IsSafe (ofKind kind op) work := by
  cases kind with
  | conv => exact safe_convolution
  | maxPool => exact safe_pooling .max
  | averagePool => exact safe_pooling .average
  | concat => exact safe_concat
  | batchMatMul => exact safe_batchMatMul
  | matMul => exact safe_matMul
  | fullyConnected => exact safe_fullyConnected false
  | fullyConnectedTransposed => exact safe_fullyConnected true
  | clip => exact safe_clip
  | replaceNaN => exact safe_replaceNaN
  | relu => exact safe_unary .relu
  | sigmoid => exact safe_unary .sigmoid
  | tanh => exact safe_unary .tanh
  | softmax => exact safe_softmax
  | add => exact safe_arithmetic .add
  | sub => exact safe_arithmetic .sub
  | mul => exact safe_arithmetic .mul
  | div => exact safe_arithmetic .div
  | sum => exact safe_sum
  | transpose => exact safe_transpose
  | reshape => exact safe_reshape
  | flatten => exact safe_flatten
  | dropout => exact safe_dropout

theorem safe_operator (op : Operator) (work : Workspace) : IsSafe (operator op) work := by
  unfold operator
  split
  · exact safe_throw trivial
  · exact safe_ofKind _

end Lowering
end NetImport
