import NetImport.Proofs.Lowering.Results

/-!
# The lowerings of all operators

Each lowering is a sequence of steps that compute, with the branches that its definition
has, and comes to a last step that binds.  So an operator that is lowered leaves behind what
its last step allows, and one that is not still only grows the workspace.
-/

namespace NetImport
namespace Lowering

theorem comesTo_bindOutput (op : Operator) (value : Handle) :
    ComesTo (BindsOne op) (bindOutput op 0 value) :=
  comesTo_self ⟨value, rfl⟩

/-! ## Elementwise operators -/

theorem comesTo_clip (op : Operator) : ComesTo (BindsOne op) (clip op) := by
  refine comesTo_bind (computes_input op 0) fun value => ?_
  refine comesTo_bind (computes_typeOf op value) fun _ => ?_
  refine comesTo_bind (computes_ofExcept (op.numberArg?_properly _)) fun low => ?_
  refine comesTo_bind (computes_ofExcept (op.numberArg?_properly _)) fun high => ?_
  exact comesTo_bind (computes_build op ⟨_, _, fun _ => rfl, trivial⟩) fun _ =>
    comesTo_bindOutput ..

theorem comesTo_replaceNaN (op : Operator) : ComesTo (BindsOne op) (replaceNaN op) := by
  refine comesTo_bind (computes_input op 0) fun value => ?_
  refine comesTo_bind (computes_typeOf op value) fun type => ?_
  extract_lets rest
  have hrest (checked : Unit) : ComesTo (BindsOne op) (rest checked) := by
    refine comesTo_bind (computes_ofExcept (op.singleArg?_properly _)) fun fill => ?_
    refine comesTo_bind (computes_build op ⟨_, _, fun _ => rfl, trivial⟩) fun mask => ?_
    refine comesTo_bind (computes_build op ⟨_, _, fun _ => rfl, trivial⟩) fun splat => ?_
    exact comesTo_bind (computes_build op ⟨_, _, fun _ => rfl, trivial⟩) fun _ =>
      comesTo_bindOutput ..
  exact comesTo_ite (comesTo_bind (computes_throw trivial) hrest) (hrest ())

theorem comesTo_unary (fn : UnaryOp) (op : Operator) : ComesTo (BindsOne op) (unary fn op) :=
  comesTo_bind (computes_input op 0) fun _ =>
    comesTo_bind (computes_build op ⟨_, _, fun _ => rfl, trivial⟩) fun _ => comesTo_bindOutput ..

theorem comesTo_softmax (op : Operator) : ComesTo (BindsOne op) (softmax op) := by
  refine comesTo_bind (computes_input op 0) fun value => ?_
  refine comesTo_bind (computes_dimsOf op value) fun dims => ?_
  refine comesTo_bind (computes_ofExcept (op.intArg_properly ..)) fun axis => ?_
  refine comesTo_bind (computes_canonicalAxis ..) fun axis => ?_
  refine comesTo_bind (computes_matrixDims ..) fun matrix => ?_
  refine comesTo_bind (computes_reshapeTo ..) fun flat => ?_
  refine comesTo_bind (computes_build op ⟨_, _, fun _ => rfl, trivial⟩) fun result => ?_
  exact comesTo_bind (computes_reshapeTo ..) fun _ => comesTo_bindOutput ..

theorem computes_broadcastAxis (op : Operator) (axis : Int) (a b : List Nat) :
    Computes (broadcastAxis op axis a b) := by
  unfold broadcastAxis
  extract_lets last rest
  have hlast (axis : Nat) : Computes (last axis) :=
    computes_ite (computes_bind (computes_throw trivial) fun _ => computes_pure _) (computes_pure _)
  have hrest (checked : Unit) : Computes (rest checked) := by
    refine computes_ite (computes_bind (computes_difference ..) hlast) (computes_ite ?_ ?_)
    · exact computes_bind (computes_throw trivial) hlast
    · exact computes_bind (computes_pure _) hlast
  exact computes_ite (computes_bind (computes_throw trivial) hrest) (hrest ())

theorem comesTo_arithmetic (fn : ArithmeticOp) (op : Operator) :
    ComesTo (BindsOne op) (arithmetic fn op) := by
  refine comesTo_bind (computes_ofExcept (op.flagArg_properly _)) fun broadcast => ?_
  refine comesTo_bind (computes_ofExcept (op.intArg_properly ..)) fun axis => ?_
  refine comesTo_bind (computes_input op 0) fun lhs => ?_
  refine comesTo_bind (computes_input op 1) fun rhs => ?_
  refine comesTo_bind (computes_dimsOf op lhs) fun a => ?_
  refine comesTo_bind (computes_dimsOf op rhs) fun b => ?_
  extract_lets rest
  have hrest (rhs : Handle) : ComesTo (BindsOne op) (rest rhs) :=
    comesTo_bind (computes_build op ⟨_, _, fun _ => rfl, trivial⟩) fun _ => comesTo_bindOutput ..
  refine comesTo_ite (comesTo_bind (computes_broadcastAxis ..) fun axis => ?_) ?_
  · exact comesTo_bind (computes_build op ⟨_, _, fun _ => rfl, trivial⟩) hrest
  · exact comesTo_bind (computes_pure _) hrest

theorem computes_addAll (op : Operator) (position : Nat) (total : Handle) (values : List Handle) :
    Computes (addAll op position total values) := by
  induction values generalizing position total with
  | nil => exact computes_pure total
  | cons value values ih =>
      exact computes_bind (computes_build op ⟨_, _, fun _ => rfl, trivial⟩) fun _ => ih _ _

theorem comesTo_sum (op : Operator) : ComesTo (BindsOne op) (sum op) := by
  refine comesTo_bind (computes_allInputs op) fun values => ?_
  cases values with
  | nil => exact comesTo_throw trivial
  | cons first others => exact comesTo_bind (computes_addAll ..) fun _ => comesTo_bindOutput ..

/-! ## Layout operators -/

theorem computes_expandAll (op : Operator) (dims : List Nat) (position : Nat)
    (values : List Handle) :
    Computes (expandAll op dims position values) := by
  induction values generalizing position with
  | nil => exact computes_pure _
  | cons value values ih =>
      refine computes_bind (computes_build op ⟨_, _, fun _ => rfl, trivial⟩) fun expanded => ?_
      exact computes_bind (ih _) fun _ => computes_pure _

theorem computes_stack (op : Operator) (values : List Handle) (dims : List Nat) (axis : Nat) :
    Computes (stack op values dims axis) := by
  refine computes_bind (computes_splitAt ..) fun parts => computes_ite ?_ ?_
  · refine computes_bind (computes_build op ⟨_, _, fun _ => rfl, trivial⟩) fun joined => ?_
    exact computes_build op ⟨_, _, fun _ => rfl, trivial⟩
  · refine computes_bind (computes_expandAll ..) fun expanded => ?_
    exact computes_build op ⟨_, _, fun _ => rfl, trivial⟩

theorem comesTo_concat (op : Operator) : ComesTo (BindsTwo op) (concat op) := by
  refine comesTo_bind (computes_ofExcept (op.flagArg_properly _)) fun addAxis => ?_
  refine comesTo_bind (computes_ofExcept (concatAxis_properly op)) fun axis => ?_
  refine comesTo_bind (computes_allInputs op) fun values => ?_
  refine comesTo_bind (computes_mapM (computes_dimsOf op) _) fun shapes => ?_
  split
  · exact comesTo_throw trivial
  · next first _ =>
      extract_lets rest
      have hrest (joined : Handle × List Nat) : ComesTo (BindsTwo op) (rest joined) := by
        exact comesTo_self ⟨_, _, splitInfo_properly op _, rfl⟩
      refine comesTo_ite (comesTo_bind (computes_canonicalAxis ..) fun axis => ?_)
        (comesTo_bind (computes_canonicalAxis ..) fun axis => ?_)
      · split
        · exact comesTo_bind (computes_throw trivial) hrest
        · exact comesTo_bind (computes_stack ..) fun _ => comesTo_bind (computes_pure _) hrest
      · refine comesTo_bind (computes_build op ⟨_, _, fun _ => rfl, trivial⟩) fun _ => ?_
        exact comesTo_bind (computes_pure _) hrest

theorem comesTo_transpose (op : Operator) : ComesTo (BindsOne op) (transpose op) := by
  refine comesTo_bind (computes_input op 0) fun value => ?_
  refine comesTo_bind (computes_dimsOf op value) fun _ => ?_
  refine comesTo_bind (computes_ofExcept (op.naturalsArg?_properly _)) fun perm => ?_
  exact comesTo_bind (computes_build op ⟨_, _, fun _ => rfl, trivial⟩) fun _ =>
    comesTo_bindOutput ..

theorem computes_requestedExtents (op : Operator) : Computes (requestedExtents op) := by
  refine computes_bind (computes_ofExcept (op.intsArg?_properly _)) fun given => ?_
  cases given with
  | some spec => exact computes_pure _
  | none =>
      refine computes_bind (computes_input op 1) fun source => ?_
      refine computes_bind (computes_constant? source) fun payload => ?_
      cases payload with
      | none => exact computes_throw trivial
      | some tensor =>
          dsimp only
          split
          · exact computes_pure _
          · exact computes_throw trivial

theorem comesTo_reshape (op : Operator) : ComesTo (BindsTwo op) (reshape op) := by
  refine comesTo_bind (computes_input op 0) fun value => ?_
  refine comesTo_bind (computes_dimsOf op value) fun dims => ?_
  refine comesTo_bind (computes_requestedExtents op) fun spec => ?_
  refine comesTo_bind (computes_ofExcept (resolveExtents_properly ..)) fun resolved => ?_
  refine comesTo_bind (computes_build op ⟨_, _, fun _ => rfl, trivial⟩) fun reshaped => ?_
  -- The extents of the input are given, which is a step that always succeeds.
  exact comesTo_self ⟨_, .ok (Tensor.ofList .i64 (dims.map Int64.ofNat)), refusesOnly_ok _, rfl⟩

theorem comesTo_flatten (op : Operator) : ComesTo (BindsOne op) (flatten op) := by
  refine comesTo_bind (computes_input op 0) fun value => ?_
  refine comesTo_bind (computes_dimsOf op value) fun dims => ?_
  refine comesTo_bind (computes_ofExcept (op.naturalArg_properly ..)) fun axis => ?_
  extract_lets rest
  have hrest (checked : Unit) : ComesTo (BindsOne op) (rest checked) := by
    refine comesTo_bind (computes_matrixDims ..) fun matrix => ?_
    exact comesTo_bind (computes_build op ⟨_, _, fun _ => rfl, trivial⟩) fun _ =>
      comesTo_bindOutput ..
  exact comesTo_ite (comesTo_bind (computes_throw trivial) hrest) (hrest ())

theorem comesTo_dropout (op : Operator) : ComesTo (BindsOne op) (dropout op) :=
  comesTo_bind (computes_input op 0) fun _ => comesTo_bindOutput ..

/-! ## Matrix products -/

theorem computes_transposeMatrix (op : Operator) (value : Handle) (suffix : String) :
    Computes (transposeMatrix op value suffix) :=
  computes_build op ⟨_, _, fun _ => rfl, trivial⟩

theorem computes_flattenAt (op : Operator) (value : Handle) (arg : String) (axis : Nat)
    (suffix : String) :
    Computes (flattenAt op value arg axis suffix) := by
  refine computes_bind (computes_dimsOf op value) fun dims => ?_
  extract_lets rest
  have hrest (checked : Unit) : Computes (rest checked) :=
    computes_bind (computes_matrixDims ..) fun _ => computes_reshapeTo ..
  exact computes_ite (computes_bind (computes_throw trivial) hrest) (hrest ())

theorem comesTo_matMul (op : Operator) : ComesTo (BindsOne op) (matMul op) := by
  refine comesTo_bind (computes_ofExcept (op.flagArg_properly _)) fun transA => ?_
  refine comesTo_bind (computes_ofExcept (op.flagArg_properly _)) fun transB => ?_
  refine comesTo_bind (computes_ofExcept (op.naturalArg_properly ..)) fun axisA => ?_
  refine comesTo_bind (computes_ofExcept (op.naturalArg_properly ..)) fun axisB => ?_
  refine comesTo_bind (computes_input op 0) fun a => comesTo_bind (computes_input op 1) fun b => ?_
  refine comesTo_bind (computes_flattenAt ..) fun a => ?_
  refine comesTo_bind (computes_flattenAt ..) fun b => ?_
  extract_lets rest
  have hrest (a : Handle) : ComesTo (BindsOne op) (rest a) := by
    unfold rest
    extract_lets last
    have hlast (b : Handle) : ComesTo (BindsOne op) (last b) :=
      comesTo_bind (computes_build op ⟨_, _, fun _ => rfl, trivial⟩) fun _ => comesTo_bindOutput ..
    exact comesTo_ite (comesTo_bind (computes_transposeMatrix ..) hlast)
      (comesTo_bind (computes_pure _) hlast)
  exact comesTo_ite (comesTo_bind (computes_transposeMatrix ..) hrest)
    (comesTo_bind (computes_pure _) hrest)

theorem comesTo_fullyConnected (weightTransposed : Bool) (op : Operator) :
    ComesTo (BindsOne op) (fullyConnected weightTransposed op) := by
  refine comesTo_bind (computes_ofExcept (op.naturalArg_properly ..)) fun axis => ?_
  refine comesTo_bind (computes_ofExcept (op.naturalArg_properly ..)) fun axisW => ?_
  refine comesTo_bind (computes_input op 0) fun x => comesTo_bind (computes_input op 1) fun w => ?_
  refine comesTo_bind (computes_input op 2) fun bias => ?_
  refine comesTo_bind (computes_dimsOf op x) fun xDims => ?_
  refine comesTo_bind (computes_flattenAt ..) fun x => ?_
  refine comesTo_bind (computes_flattenAt ..) fun w => ?_
  extract_lets rest
  have hrest (w : Handle) : ComesTo (BindsOne op) (rest w) := by
    refine comesTo_bind (computes_build op ⟨_, _, fun _ => rfl, trivial⟩) fun result => ?_
    refine comesTo_bind (computes_dimsOf op result) fun dims => ?_
    refine comesTo_bind (computes_build op ⟨_, _, fun _ => rfl, trivial⟩) fun bias => ?_
    refine comesTo_bind (computes_build op ⟨_, _, fun _ => rfl, trivial⟩) fun total => ?_
    refine comesTo_bind (computes_splitAt ..) fun parts => ?_
    refine comesTo_bind (computes_extentAt ..) fun columns => ?_
    exact comesTo_bind (computes_reshapeTo ..) fun _ => comesTo_bindOutput ..
  exact comesTo_ite (comesTo_bind (computes_pure _) hrest)
    (comesTo_bind (computes_transposeMatrix ..) hrest)

namespace BatchOperand

theorem computes_read (op : Operator) (value : Handle) (transposed : Bool) :
    Computes (read op value transposed) := by
  refine computes_bind (computes_dimsOf op value) fun dims => ?_
  extract_lets rest
  have hrest (checked : Unit) : Computes (rest checked) := by
    refine computes_bind (computes_difference ..) fun axis => ?_
    refine computes_bind (computes_splitAt ..) fun parts => ?_
    refine computes_bind (computes_extentAt ..) fun rows => ?_
    exact computes_bind (computes_extentAt ..) fun columns => computes_pure _
  exact computes_ite (computes_bind (computes_throw trivial) hrest) (hrest ())

theorem computes_oriented (operand : BatchOperand) (op : Operator) (matrix : Handle)
    (name : String) :
    Computes (operand.oriented op matrix name) :=
  computes_ite (computes_transposeMatrix ..) (computes_pure _)

theorem computes_toMatrix (operand : BatchOperand) (op : Operator) (side : String) :
    Computes (operand.toMatrix op side) :=
  computes_bind (computes_reshapeTo ..) fun _ => computes_oriented ..

theorem computes_flattened (operand : BatchOperand) (op : Operator) (side : String) :
    Computes (operand.flattened op side) :=
  computes_reshapeTo ..

theorem computes_matrixAt (operand : BatchOperand) (op : Operator) (flat : Handle)
    (position : Nat) (side : String) :
    Computes (operand.matrixAt op flat position side) := by
  refine computes_bind (computes_build op ⟨_, _, fun _ => rfl, trivial⟩) fun slice => ?_
  exact computes_bind (computes_build op ⟨_, _, fun _ => rfl, trivial⟩) fun _ =>
    computes_oriented ..

end BatchOperand

theorem computes_matrixSource (op : Operator) (operand : BatchOperand) (count : Nat)
    (side : String) :
    Computes (matrixSource op operand count side) :=
  computes_ite (computes_bind (operand.computes_toMatrix ..) fun _ => computes_pure _)
    (computes_bind (operand.computes_flattened ..) fun _ => computes_pure _)

theorem computes_matrixFrom (op : Operator) (operand : BatchOperand) (source : MatrixSource)
    (position : Nat) (side : String) :
    Computes (matrixFrom op operand source position side) := by
  cases source with
  | sliced flat => exact operand.computes_matrixAt ..
  | shared matrix => exact computes_pure _

theorem computes_productPerPosition (op : Operator) (lhs rhs : BatchOperand)
    (batch : List Nat) :
    Computes (productPerPosition op lhs rhs batch) := by
  refine computes_bind (computes_matrixSource ..) fun lhsSource => ?_
  refine computes_bind (computes_matrixSource ..) fun rhsSource => ?_
  refine computes_bind (computes_mapM (fun position => ?_) _) fun products => ?_
  · refine computes_bind (computes_matrixFrom ..) fun a => ?_
    refine computes_bind (computes_matrixFrom ..) fun b => ?_
    exact computes_build op ⟨_, _, fun _ => rfl, trivial⟩
  · cases products with
    | nil => exact computes_throw trivial
    | cons first others =>
        refine computes_bind (computes_dimsOf op first) fun dims => ?_
        refine computes_bind (computes_extentAt ..) fun rows => ?_
        refine computes_bind (computes_extentAt ..) fun cols => ?_
        refine computes_bind (computes_build op ⟨_, _, fun _ => rfl, trivial⟩) fun joined => ?_
        exact computes_build op ⟨_, _, fun _ => rfl, trivial⟩

theorem computes_productWithSingle (op : Operator) (lhs rhs : BatchOperand) :
    Computes (productWithSingle op lhs rhs) := by
  unfold productWithSingle
  extract_lets axes rank units rest
  have hrest (a : Handle) : Computes (rest a) := by
    refine computes_bind (computes_reshapeTo ..) fun a => ?_
    refine computes_bind (rhs.computes_toMatrix ..) fun b => ?_
    refine computes_bind (computes_build op ⟨_, _, fun _ => rfl, trivial⟩) fun result => ?_
    refine computes_bind (computes_dimsOf op result) fun dims => ?_
    exact computes_bind (computes_extentAt ..) fun columns => computes_reshapeTo ..
  refine computes_ite (computes_bind ?_ hrest) (computes_bind (computes_pure _) hrest)
  exact computes_build op ⟨_, _, fun _ => rfl, trivial⟩

theorem computes_batchProduct (op : Operator) (broadcast : Bool) (lhs rhs : BatchOperand) :
    Computes (batchProduct op broadcast lhs rhs) := by
  unfold batchProduct
  extract_lets units rest
  have hrest (checked : Unit) : Computes (rest checked) := by
    refine computes_ite ?_ (computes_ite (computes_productPerPosition ..)
      (computes_ite (computes_throw trivial) ?_))
    · refine computes_bind (lhs.computes_toMatrix ..) fun a => ?_
      refine computes_bind (rhs.computes_toMatrix ..) fun b => ?_
      exact computes_build op ⟨_, _, fun _ => rfl, trivial⟩
    · refine computes_ite (computes_productWithSingle ..) (computes_ite ?_ (computes_throw trivial))
      exact computes_productPerPosition ..
  exact computes_ite (computes_bind (computes_throw trivial) hrest) (hrest ())

theorem comesTo_batchMatMul (op : Operator) : ComesTo (BindsOne op) (batchMatMul op) := by
  refine comesTo_bind (computes_ofExcept (op.flagArg_properly _)) fun transA => ?_
  refine comesTo_bind (computes_ofExcept (op.flagArg_properly _)) fun transB => ?_
  refine comesTo_bind (computes_ofExcept (op.flagArg_properly _)) fun broadcast => ?_
  refine comesTo_bind (computes_input op 0) fun a => comesTo_bind (computes_input op 1) fun b => ?_
  refine comesTo_bind (BatchOperand.computes_read ..) fun lhs => ?_
  refine comesTo_bind (BatchOperand.computes_read ..) fun rhs => ?_
  exact comesTo_bind (computes_batchProduct ..) fun _ => comesTo_bindOutput ..

/-! ## Convolution and pooling -/

theorem computes_toChannelsFirst (op : Operator) (order : StorageOrder) (value : Handle)
    (suffix : String) :
    Computes (toChannelsFirst op order value suffix) := by
  cases order with
  | channelsFirst => exact computes_pure _
  | channelsLast => exact computes_build op ⟨_, _, fun _ => rfl, trivial⟩

theorem comesTo_bindResult (op : Operator) (order : StorageOrder) (value : Handle) :
    ComesTo (BindsOne op) (bindResult op order value) := by
  cases order with
  | channelsFirst => exact comesTo_bindOutput ..
  | channelsLast =>
      exact comesTo_bind (computes_build op ⟨_, _, fun _ => rfl, trivial⟩) fun _ =>
        comesTo_bindOutput ..

theorem computes_requireRankFour (op : Operator) (what : String) (value : Handle) :
    Computes (requireRankFour op what value) :=
  computes_bind (computes_dimsOf op value) fun _ =>
    computes_ite (computes_throw trivial) (computes_pure _)

theorem computes_imagePlane (op : Operator) (value : Handle) : Computes (imagePlane op value) :=
  computes_bind (computes_dimsOf op value) fun _ => computes_bind (computes_extentAt ..) fun _ =>
    computes_bind (computes_extentAt ..) fun _ => computes_pure _

theorem comesTo_convolution (op : Operator) : ComesTo (BindsOne op) (convolution op) := by
  refine comesTo_bind (computes_ofExcept (storageOrder_properly op)) fun order => ?_
  refine comesTo_bind (computes_ofExcept (windowArgs_properly op)) fun window => ?_
  refine comesTo_bind (computes_ofExcept (op.naturalArg_properly ..)) fun group => ?_
  refine comesTo_bind (computes_input op 0) fun value => ?_
  refine comesTo_bind (computes_input op 1) fun filter => ?_
  refine comesTo_bind (computes_optionalInput op 2) fun bias => ?_
  refine comesTo_bind (computes_requireRankFour ..) fun _ => ?_
  refine comesTo_bind (computes_requireRankFour ..) fun _ => ?_
  refine comesTo_bind (computes_toChannelsFirst ..) fun value => ?_
  refine comesTo_bind (computes_toChannelsFirst ..) fun filter => ?_
  refine comesTo_bind (computes_imagePlane op filter) fun plane => ?_
  exact comesTo_bind (computes_build op ⟨_, _, fun _ => rfl, trivial⟩) fun _ =>
    comesTo_bindResult ..

theorem comesTo_pooling (mode : PoolMode) (op : Operator) :
    ComesTo (BindsOne op) (pooling mode op) := by
  refine comesTo_bind (computes_ofExcept (storageOrder_properly op)) fun order => ?_
  refine comesTo_bind (computes_ofExcept (windowArgs_properly op)) fun args => ?_
  refine comesTo_bind (computes_ofExcept (op.flagArg_properly _)) fun global => ?_
  refine comesTo_bind (computes_input op 0) fun value => ?_
  refine comesTo_bind (computes_requireRankFour ..) fun _ => ?_
  refine comesTo_bind (computes_toChannelsFirst ..) fun value => ?_
  refine comesTo_bind (computes_imagePlane op value) fun plane => ?_
  extract_lets rest
  have hrest (window : Window) : ComesTo (BindsOne op) (rest window) :=
    comesTo_bind (computes_build op ⟨_, _, fun _ => rfl, trivial⟩) fun _ => comesTo_bindResult ..
  refine comesTo_ite (comesTo_bind (computes_pure _) hrest) ?_
  split
  · exact comesTo_bind (computes_pure _) hrest
  · exact comesTo_bind (computes_throw trivial) hrest

/-! ## Every operator -/

theorem comesTo_ofKind (kind : OperatorKind) (op : Operator) :
    ComesTo (FinalStep op kind) (ofKind kind op) := by
  cases kind with
  | conv => exact comesTo_convolution op
  | maxPool => exact comesTo_pooling .max op
  | averagePool => exact comesTo_pooling .average op
  | concat => exact comesTo_concat op
  | batchMatMul => exact comesTo_batchMatMul op
  | matMul => exact comesTo_matMul op
  | fullyConnected => exact comesTo_fullyConnected false op
  | fullyConnectedTransposed => exact comesTo_fullyConnected true op
  | clip => exact comesTo_clip op
  | replaceNaN => exact comesTo_replaceNaN op
  | relu => exact comesTo_unary .relu op
  | sigmoid => exact comesTo_unary .sigmoid op
  | tanh => exact comesTo_unary .tanh op
  | softmax => exact comesTo_softmax op
  | add => exact comesTo_arithmetic .add op
  | sub => exact comesTo_arithmetic .sub op
  | mul => exact comesTo_arithmetic .mul op
  | div => exact comesTo_arithmetic .div op
  | sum => exact comesTo_sum op
  | transpose => exact comesTo_transpose op
  | reshape => exact comesTo_reshape op
  | flatten => exact comesTo_flatten op
  | dropout => exact comesTo_dropout op

theorem grows_operator (op : Operator) : Leads Workspace.Grows (operator op) := by
  unfold operator
  split
  · exact leads_throw _
  · next kind _ => exact (comesTo_ofKind kind op).grows fun _ => grows_finalStep

/-- What an operator leaves behind when it is lowered. -/
theorem lowers_of_run_operator {op : Operator} {work last : Workspace} {result : Unit}
    (hrun : (operator op).run.run work = (.ok result, last)) :
    ∃ nodes bindings, Workspace.Lowers [op] work last nodes bindings := by
  unfold operator at hrun
  split at hrun
  · cases hrun
  · next kind hkind =>
      obtain ⟨next, hcomputes, ⟨error, -, hfailed⟩ | ⟨final, hfinal, hcomes⟩⟩ :=
        (comesTo_ofKind kind op).run_comes work
      · rw [hfailed] at hrun
        cases hrun
      · rw [hcomes] at hrun
        obtain ⟨nodes, hbefore⟩ := hcomputes.lowers
        obtain ⟨nodes', bindings, hlast⟩ := lowers_of_run_finalStep hkind hfinal hrun
        exact ⟨_, _, hbefore.append hlast⟩

theorem lowers_of_run_operators {ops : List Operator} {work last : Workspace} {result : Unit}
    (hrun : (ops.forM operator).run.run work = (.ok result, last)) :
    ∃ nodes bindings, Workspace.Lowers ops work last nodes bindings := by
  induction ops generalizing work with
  | nil =>
      obtain rfl := (Prod.mk.inj hrun).2
      exact ⟨[], [], .nil work⟩
  | cons op ops ih =>
      obtain ⟨_, next, hfirst, hrest⟩ := run_bind_eq_ok_iff.mp hrun
      obtain ⟨nodes, bindings, hop⟩ := lowers_of_run_operator hfirst
      obtain ⟨nodes', bindings', hops⟩ := ih hrest
      exact ⟨_, _, hop.append hops⟩

end Lowering
end NetImport
