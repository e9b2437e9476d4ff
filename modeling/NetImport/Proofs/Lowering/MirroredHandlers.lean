import NetImport.Lowering.Dispatch
import NetImport.Proofs.Lowering.Mirroring
import NetImport.Proofs.Lowering.Results

/-!
# Operators in step

Operators that read alike lower in step, whatever their kind: each lowering looks values up
before it uses them, and nothing in it depends on where they are.  The names of auxiliary
constants are the only ones that other nodes could take.
-/

namespace NetImport
namespace Mirroring

variable {mirror : Mirroring} {op op' : Operator} {live : List Handle}

/-! ## Elementwise operators -/

theorem sameData_clip (hop : op.ReadsAlike mirror.alike op') :
    mirror.SameData live (Lowering.clip op) (Lowering.clip op') := by
  apply (sameValue_input hop 0).bind
  intro value
  apply (sameData_typeOf op op' (List.mem_cons_self ..)).bind
  intro type
  apply (sameData_ofExcept (hop.numberArg? "min")).bind
  intro low
  apply (sameData_ofExcept (hop.numberArg? "max")).bind
  intro high
  refine SameValue.bind (sameValue_build hop ⟨fun _ => rfl, fun _ => rfl, hop.label_eq, trivial,
    by simp [NodeKind.operands]⟩) fun result => ?_
  exact sameData_bindOutput hop 0 (List.mem_cons_self ..)

theorem sameData_replaceNaN (hop : op.ReadsAlike mirror.alike op') :
    mirror.SameData live (Lowering.replaceNaN op) (Lowering.replaceNaN op') := by
  apply (sameValue_input hop 0).bind
  intro value
  apply (sameData_typeOf op op' (List.mem_cons_self ..)).bind
  intro type
  extract_lets rest rest'
  have hrest : mirror.SameData (value :: live) (rest ()) (rest' ()) := by
    apply (sameData_ofExcept (hop.singleArg? "value")).bind
    intro fill
    refine SameValue.bind (sameValue_build hop ⟨fun _ => rfl, fun _ => rfl, hop.nodeName_eq _, trivial,
    by simp [NodeKind.operands]⟩) fun mask => ?_
    refine SameValue.bind (sameValue_build hop ⟨fun _ => rfl, fun _ => rfl, hop.nodeName_eq _, trivial,
    by simp [NodeKind.operands]⟩) fun splat => ?_
    refine SameValue.bind (sameValue_build hop ⟨fun _ => rfl, fun _ => rfl, hop.label_eq, trivial,
    by simp [NodeKind.operands]⟩) fun result => ?_
    exact sameData_bindOutput hop 0 (List.mem_cons_self ..)
  exact .ite (inStep_throw_bind (hop.shapeError_eq _)) hrest

theorem sameData_unary (fn : UnaryOp) (hop : op.ReadsAlike mirror.alike op') :
    mirror.SameData live (Lowering.unary fn op) (Lowering.unary fn op') := by
  apply (sameValue_input hop 0).bind
  intro value
  refine SameValue.bind (sameValue_build hop ⟨fun _ => rfl, fun _ => rfl, hop.label_eq, trivial,
    by simp [NodeKind.operands]⟩) fun result => ?_
  exact sameData_bindOutput hop 0 (List.mem_cons_self ..)

theorem sameData_softmax (hop : op.ReadsAlike mirror.alike op') :
    mirror.SameData live (Lowering.softmax op) (Lowering.softmax op') := by
  apply (sameValue_input hop 0).bind
  intro value
  apply (sameData_dimsOf op op' (List.mem_cons_self ..)).bind
  intro dims
  apply (sameData_ofExcept (hop.intArg "axis" 1)).bind
  intro given
  apply (sameData_canonicalAxis hop "axis" given dims.length).bind
  intro axis
  apply (sameData_matrixDims hop dims axis).bind
  intro matrix
  apply (sameValue_reshapeTo hop (List.mem_cons_self ..) matrix "input_2d").bind
  intro flat
  refine SameValue.bind (sameValue_build hop ⟨fun _ => rfl, fun _ => rfl, hop.label_eq, trivial,
    by simp [NodeKind.operands]⟩) fun result => ?_
  apply (sameValue_reshapeTo hop (List.mem_cons_self ..) dims "reshape").bind
  intro restored
  exact sameData_bindOutput hop 0 (List.mem_cons_self ..)

theorem sameData_broadcastAxis (hop : op.ReadsAlike mirror.alike op') (axis : Int)
    (a b : List Nat) :
    mirror.SameData live (Lowering.broadcastAxis op axis a b)
      (Lowering.broadcastAxis op' axis a b) := by
  unfold Lowering.broadcastAxis
  extract_lets last rest last' rest'
  have hlast (axis : Nat) : mirror.SameData live (last axis) (last' axis) :=
    .ite (inStep_throw_bind (hop.shapeError_eq _)) (sameData_pure _)
  have hrest : mirror.SameData live (rest ()) (rest' ()) := by
    apply InStep.ite
    · exact (sameData_difference hop a.length b.length).bind hlast
    · exact .ite (inStep_throw_bind (hop.malformed_eq _ _)) (inStep_pure_bind (hlast _))
  exact .ite (inStep_throw_bind (hop.shapeError_eq _)) hrest

theorem sameData_arithmetic (fn : ArithmeticOp) (hop : op.ReadsAlike mirror.alike op') :
    mirror.SameData live (Lowering.arithmetic fn op) (Lowering.arithmetic fn op') := by
  apply (sameData_ofExcept (hop.flagArg "broadcast")).bind
  intro broadcast
  apply (sameData_ofExcept (hop.intArg "axis" (-1))).bind
  intro axis
  apply (sameValue_input hop 0).bind
  intro lhs
  apply (sameValue_input hop 1).bind
  intro rhs
  apply (sameData_dimsOf op op' (List.mem_cons_of_mem _ (List.mem_cons_self ..))).bind
  intro a
  apply (sameData_dimsOf op op' (List.mem_cons_self ..)).bind
  intro b
  extract_lets rest rest'
  have hrest (rhs : Handle) : mirror.SameData (rhs :: lhs :: live) (rest rhs)
      (rest' (rhs.shift mirror.offset)) := by
    refine SameValue.bind (sameValue_build hop ⟨fun _ => rfl, fun _ => rfl, hop.label_eq,
      trivial, by simp [NodeKind.operands]⟩) fun result => ?_
    exact sameData_bindOutput hop 0 (List.mem_cons_self ..)
  apply InStep.ite
  · apply (sameData_broadcastAxis hop axis a b).bind
    intro axis
    refine SameValue.bind (sameValue_build hop ⟨fun _ => rfl, fun _ => rfl, hop.nodeName_eq _,
      trivial, by simp [NodeKind.operands]⟩) fun laid => (hrest laid).mono ?_
    simp
  · exact inStep_pure_bind (hrest rhs)

theorem sameValue_addAll (hop : op.ReadsAlike mirror.alike op') {total : Handle}
    {values : List Handle} (position : Nat) (htotal : total ∈ live) (hvalues : values ⊆ live) :
    mirror.SameValue live (Lowering.addAll op position total values)
      (Lowering.addAll op' position (total.shift mirror.offset)
        (values.map (·.shift mirror.offset))) := by
  induction values generalizing position total live with
  | nil => exact sameValue_pure htotal
  | cons value values ih =>
      obtain ⟨hvalue, hothers⟩ := List.cons_subset.mp hvalues
      have hname : (if (values.map (·.shift mirror.offset)).isEmpty then op'.label
            else Lowering.nodeName op' s!"partial{position}") =
          if values.isEmpty then op.label else Lowering.nodeName op s!"partial{position}" := by
        rw [List.isEmpty_map, hop.label_eq, hop.nodeName_eq]
      refine SameValue.bind (sameValue_build hop ⟨fun _ => rfl, fun _ => rfl, hname, trivial,
        by simp [NodeKind.operands, htotal, hvalue]⟩) fun partialSum => ?_
      exact ih _ (List.mem_cons_self ..) (List.subset_cons_of_subset _ hothers)

theorem sameData_sum (hop : op.ReadsAlike mirror.alike op') :
    mirror.SameData live (Lowering.sum op) (Lowering.sum op') := by
  apply (sameValues_allInputs hop).bind
  intro values
  cases values with
  | nil => exact inStep_throw (outOfDomain_eq hop)
  | cons first others =>
      have hothers : others ⊆ first :: others ++ live :=
        List.subset_cons_of_subset first (List.subset_append_left others live)
      apply (sameValue_addAll hop 1 (List.mem_cons_self ..) hothers).bind
      intro total
      exact sameData_bindOutput hop 0 (List.mem_cons_self ..)

/-! ## Layout operators -/

theorem sameValues_expandAll (hop : op.ReadsAlike mirror.alike op') (dims : List Nat)
    {values : List Handle} (position : Nat) (hvalues : values ⊆ live) :
    mirror.SameValues live (Lowering.expandAll op dims position values)
      (Lowering.expandAll op' dims position (values.map (·.shift mirror.offset))) := by
  induction values generalizing position live with
  | nil => exact inStep_pure rfl (List.nil_subset live)
  | cons value values ih =>
      obtain ⟨hvalue, hothers⟩ := List.cons_subset.mp hvalues
      refine SameValue.bind (sameValue_build hop ⟨fun _ => rfl, fun _ => rfl, hop.nodeName_eq _,
        trivial, by simp [NodeKind.operands, hvalue]⟩) fun expanded => ?_
      apply (ih (position + 1) (List.subset_cons_of_subset expanded hothers)).bind
      intro rest
      apply inStep_pure rfl
      simp [Cargo.list, Cargo.value]

theorem sameValue_stack (hop : op.ReadsAlike mirror.alike op') {values : List Handle}
    (dims : List Nat) (axis : Nat) (hvalues : values ⊆ live) :
    mirror.SameValue live (Lowering.stack op values dims axis)
      (Lowering.stack op' (values.map (·.shift mirror.offset)) dims axis) := by
  unfold Lowering.stack
  apply (sameData_splitAt hop dims axis).bind
  intro parts
  apply InStep.ite
  · refine SameValue.bind (sameValue_build hop ⟨fun _ => rfl, fun _ => rfl, hop.label_eq,
      trivial, hvalues⟩) fun joined => ?_
    rw [List.length_map]
    exact sameValue_build hop ⟨fun _ => rfl, fun _ => rfl, hop.nodeName_eq _, trivial,
      by simp [NodeKind.operands]⟩
  · apply (sameValues_expandAll hop (dims ++ [1]) 0 hvalues).bind
    intro expanded
    exact sameValue_build hop ⟨fun _ => rfl, fun _ => rfl, hop.label_eq, trivial,
      List.subset_append_left expanded live⟩

theorem sameData_concat (hop : op.ReadsAlike mirror.alike op')
    (hfree : ∀ name, op.outputs[1]? = some name →
      mirror.before.findVariable? (Lowering.nodeName op name) = none) :
    mirror.SameData live (Lowering.concat op) (Lowering.concat op') := by
  unfold Lowering.concat
  rw [hop.outputs_eq]
  apply (sameData_ofExcept (hop.flagArg "add_axis")).bind
  intro addAxis
  apply (sameData_ofExcept hop.concatAxis).bind
  intro axis
  apply (sameValues_allInputs hop).bind
  intro values
  have hvalues : values ⊆ values ++ live := List.subset_append_left values live
  have hshapes : mirror.SameData (values ++ live) (values.mapM (Lowering.dimsOf op))
      ((values.map (·.shift mirror.offset)).mapM (Lowering.dimsOf op')) := by
    apply SameData.mapM
    rw [List.forall₂_map_right_iff, List.forall₂_same]
    exact fun value hvalue => sameData_dimsOf op op' (hvalues hvalue)
  apply hshapes.bind
  intro shapes
  split
  · exact inStep_throw (outOfDomain_eq hop)
  · next first _ =>
      extract_lets rest rest'
      have hrest {value : Handle} (extents : List Nat) {known : List Handle}
          (hvalue : value ∈ known) : mirror.SameData known (rest (value, extents))
            (rest' (value.shift mirror.offset, extents)) := by
        apply (sameData_bindOutput hop 0 hvalue).bind
        intro bound
        apply InStep.ite
        · apply (sameData_ofExcept (hop.splitInfo extents)).bind
          intro tensor
          exact sameData_bindConstantOutput hop 1 tensor hfree
        · exact sameData_pure _
      apply InStep.ite
      · apply (sameData_canonicalAxis hop "axis" axis _).bind
        intro axis
        split
        · exact inStep_throw_bind (hop.shapeError_eq _)
        · apply (sameValue_stack hop first axis hvalues).bind
          intro joined
          exact inStep_pure_bind (hrest _ (List.mem_cons_self ..))
      · apply (sameData_canonicalAxis hop "axis" axis _).bind
        intro axis
        refine SameValue.bind (sameValue_build hop ⟨fun _ => rfl, fun _ => rfl, hop.label_eq,
          trivial, hvalues⟩) fun joined => ?_
        exact inStep_pure_bind (hrest _ (List.mem_cons_self ..))

theorem sameData_transpose (hop : op.ReadsAlike mirror.alike op') :
    mirror.SameData live (Lowering.transpose op) (Lowering.transpose op') := by
  apply (sameValue_input hop 0).bind
  intro value
  apply (sameData_dimsOf op op' (List.mem_cons_self ..)).bind
  intro dims
  apply (sameData_ofExcept (hop.naturalsArg? "axes")).bind
  intro axes
  refine SameValue.bind (sameValue_build hop ⟨fun _ => rfl, fun _ => rfl, hop.label_eq, trivial,
    by simp [NodeKind.operands]⟩) fun result => ?_
  exact sameData_bindOutput hop 0 (List.mem_cons_self ..)

theorem sameData_requestedExtents (hop : op.ReadsAlike mirror.alike op') :
    mirror.SameData live (Lowering.requestedExtents op) (Lowering.requestedExtents op') := by
  apply (sameData_ofExcept (hop.intsArg? "shape")).bind
  intro given
  cases given with
  | some spec => exact sameData_pure spec
  | none =>
      apply (sameValue_input hop 1).bind
      intro source
      apply (sameData_constant? source).bind
      intro found
      cases found with
      | none => exact inStep_throw (hop.malformed_eq _ _)
      | some tensor =>
          dsimp only
          split
          · exact sameData_pure _
          · exact inStep_throw (hop.malformed_eq _ _)

theorem sameData_reshape (hop : op.ReadsAlike mirror.alike op')
    (hfree : ∀ name, op.outputs[1]? = some name →
      mirror.before.findVariable? (Lowering.nodeName op name) = none) :
    mirror.SameData live (Lowering.reshape op) (Lowering.reshape op') := by
  unfold Lowering.reshape
  rw [hop.outputs_eq]
  apply (sameValue_input hop 0).bind
  intro value
  apply (sameData_dimsOf op op' (List.mem_cons_self ..)).bind
  intro inputDims
  apply (sameData_requestedExtents hop).bind
  intro spec
  apply (sameData_ofExcept (hop.resolveExtents inputDims spec)).bind
  intro dims
  refine SameValue.bind (sameValue_build hop ⟨fun _ => rfl, fun _ => rfl, hop.label_eq, trivial,
    by simp [NodeKind.operands]⟩) fun result => ?_
  apply (sameData_bindOutput hop 0 (List.mem_cons_self ..)).bind
  intro bound
  apply InStep.ite
  · exact sameData_bindConstantOutput hop 1 _ hfree
  · exact sameData_pure _

theorem sameData_flatten (hop : op.ReadsAlike mirror.alike op') :
    mirror.SameData live (Lowering.flatten op) (Lowering.flatten op') := by
  apply (sameValue_input hop 0).bind
  intro value
  apply (sameData_dimsOf op op' (List.mem_cons_self ..)).bind
  intro dims
  apply (sameData_ofExcept (hop.naturalArg "axis" 1)).bind
  intro axis
  extract_lets rest rest'
  have hrest : mirror.SameData (value :: live) (rest ()) (rest' ()) := by
    apply (sameData_matrixDims hop dims axis).bind
    intro matrix
    refine SameValue.bind (sameValue_build hop ⟨fun _ => rfl, fun _ => rfl, hop.label_eq,
      trivial, by simp [NodeKind.operands]⟩) fun result => ?_
    exact sameData_bindOutput hop 0 (List.mem_cons_self ..)
  exact .ite (inStep_throw_bind (hop.malformed_eq _ _)) hrest

theorem sameData_dropout (hop : op.ReadsAlike mirror.alike op') :
    mirror.SameData live (Lowering.dropout op) (Lowering.dropout op') := by
  apply (sameValue_input hop 0).bind
  intro value
  exact sameData_bindOutput hop 0 (List.mem_cons_self ..)

/-! ## Matrix products -/

theorem sameValue_transposeMatrix (hop : op.ReadsAlike mirror.alike op') {value : Handle}
    (suffix : String) (hvalue : value ∈ live) :
    mirror.SameValue live (Lowering.transposeMatrix op value suffix)
      (Lowering.transposeMatrix op' (value.shift mirror.offset) suffix) :=
  sameValue_build hop ⟨fun _ => rfl, fun _ => rfl, hop.nodeName_eq _, trivial,
    by simp [NodeKind.operands, hvalue]⟩

theorem sameValue_flattenAt (hop : op.ReadsAlike mirror.alike op') {value : Handle}
    (arg : String) (axis : Nat) (suffix : String) (hvalue : value ∈ live) :
    mirror.SameValue live (Lowering.flattenAt op value arg axis suffix)
      (Lowering.flattenAt op' (value.shift mirror.offset) arg axis suffix) := by
  apply (sameData_dimsOf op op' hvalue).bind
  intro dims
  extract_lets rest rest'
  have hrest : mirror.SameValue live (rest ()) (rest' ()) := by
    apply (sameData_matrixDims hop dims axis).bind
    intro matrix
    exact sameValue_reshapeTo hop hvalue matrix suffix
  exact .ite (inStep_throw_bind (hop.malformed_eq _ _)) hrest

theorem sameData_matMul (hop : op.ReadsAlike mirror.alike op') :
    mirror.SameData live (Lowering.matMul op) (Lowering.matMul op') := by
  apply (sameData_ofExcept (hop.flagArg "trans_a")).bind
  intro transA
  apply (sameData_ofExcept (hop.flagArg "trans_b")).bind
  intro transB
  apply (sameData_ofExcept (hop.naturalArg "axis_a" 1)).bind
  intro axisA
  apply (sameData_ofExcept (hop.naturalArg "axis_b" 1)).bind
  intro axisB
  apply (sameValue_input hop 0).bind
  intro lhs
  apply (sameValue_input hop 1).bind
  intro rhs
  apply (sameValue_flattenAt hop "axis_a" axisA "lhs_2d" (by simp)).bind
  intro a
  apply (sameValue_flattenAt hop "axis_b" axisB "rhs_2d" (by simp)).bind
  intro b
  extract_lets rest rest'
  have hrest (left : Handle) : mirror.SameData (left :: b :: a :: rhs :: lhs :: live)
      (rest left) (rest' (left.shift mirror.offset)) := by
    unfold rest rest'
    extract_lets last last'
    have hlast (right : Handle) :
        mirror.SameData (right :: left :: b :: a :: rhs :: lhs :: live) (last right)
          (last' (right.shift mirror.offset)) := by
      refine SameValue.bind (sameValue_build hop ⟨fun _ => rfl, fun _ => rfl, hop.label_eq,
        trivial, by simp [NodeKind.operands]⟩) fun result => ?_
      exact sameData_bindOutput hop 0 (List.mem_cons_self ..)
    apply InStep.ite
    · exact (sameValue_transposeMatrix hop "rhs_t" (by simp)).bind hlast
    · exact (sameValue_pure (by simp)).bind hlast
  apply InStep.ite
  · exact (sameValue_transposeMatrix hop "lhs_t" (by simp)).bind hrest
  · exact (sameValue_pure (by simp)).bind hrest

theorem sameData_fullyConnected (weightTransposed : Bool) (hop : op.ReadsAlike mirror.alike op') :
    mirror.SameData live (Lowering.fullyConnected weightTransposed op)
      (Lowering.fullyConnected weightTransposed op') := by
  apply (sameData_ofExcept (hop.naturalArg "axis" 1)).bind
  intro axis
  apply (sameData_ofExcept (hop.naturalArg "axis_w" 1)).bind
  intro axisW
  apply (sameValue_input hop 0).bind
  intro input
  apply (sameValue_input hop 1).bind
  intro weight
  apply (sameValue_input hop 2).bind
  intro bias
  apply (sameData_dimsOf op op' (by simp : input ∈ _)).bind
  intro xDims
  apply (sameValue_flattenAt hop "axis" axis "input_2d" (by simp)).bind
  intro x
  apply (sameValue_flattenAt hop "axis_w" axisW "weight_2d" (by simp)).bind
  intro w
  extract_lets rest rest'
  have hrest (matrix : Handle) : mirror.SameData
      (matrix :: w :: x :: bias :: weight :: input :: live) (rest matrix)
      (rest' (matrix.shift mirror.offset)) := by
    refine SameValue.bind (sameValue_build hop ⟨fun _ => rfl, fun _ => rfl, hop.nodeName_eq _,
      trivial, by simp [NodeKind.operands]⟩) fun result => ?_
    apply (sameData_dimsOf op op' (List.mem_cons_self ..)).bind
    intro dims
    refine SameValue.bind (sameValue_build hop ⟨fun _ => rfl, fun _ => rfl, hop.nodeName_eq _,
      trivial, by simp [NodeKind.operands]⟩) fun laid => ?_
    refine SameValue.bind (sameValue_build hop ⟨fun _ => rfl, fun _ => rfl, hop.label_eq,
      trivial, by simp [NodeKind.operands]⟩) fun total => ?_
    apply (sameData_splitAt hop xDims axis).bind
    intro parts
    apply (sameData_extentAt hop dims 1).bind
    intro columns
    apply (sameValue_reshapeTo hop (List.mem_cons_self ..) _ "reshape").bind
    intro restored
    exact sameData_bindOutput hop 0 (List.mem_cons_self ..)
  apply InStep.ite
  · exact (sameValue_pure (by simp)).bind hrest
  · exact (sameValue_transposeMatrix hop "weight_t" (by simp)).bind hrest

/-! ## Batched matrix products -/

/-- An operand whose matrices are counted from further on. -/
def batchOperand : Cargo Lowering.BatchOperand :=
  ⟨fun count operand => { operand with value := operand.value.shift count },
    fun operand => [operand.value]⟩

def matrixSource : Cargo Lowering.MatrixSource where
  move count source :=
    match source with
    | .sliced flat => .sliced (flat.shift count)
    | .shared matrix => .shared (matrix.shift count)
  values source :=
    match source with
    | .sliced flat => [flat]
    | .shared matrix => [matrix]

section

variable {operand : Lowering.BatchOperand}

theorem inStep_read (hop : op.ReadsAlike mirror.alike op') {value : Handle} (transposed : Bool)
    (hvalue : value ∈ live) :
    mirror.InStep live batchOperand (Lowering.BatchOperand.read op value transposed)
      (Lowering.BatchOperand.read op' (value.shift mirror.offset) transposed) := by
  apply (sameData_dimsOf op op' hvalue).bind
  intro dims
  extract_lets rest rest'
  have hrest : mirror.InStep live batchOperand (rest ()) (rest' ()) := by
    apply (sameData_difference hop dims.length 2).bind
    intro axis
    apply (sameData_splitAt hop dims axis).bind
    intro parts
    apply (sameData_extentAt hop dims axis).bind
    intro rows
    apply (sameData_extentAt hop dims (axis + 1)).bind
    intro columns
    exact inStep_pure rfl (List.cons_subset.mpr ⟨hvalue, List.nil_subset live⟩)
  exact .ite (inStep_throw_bind (hop.shapeError_eq _)) hrest

theorem sameValue_oriented (hop : op.ReadsAlike mirror.alike op') (operand : Lowering.BatchOperand)
    {matrix : Handle} (name : String) (hmatrix : matrix ∈ live) :
    mirror.SameValue live (operand.oriented op matrix name)
      ((batchOperand.move mirror.offset operand).oriented op' (matrix.shift mirror.offset) name) :=
  .ite (sameValue_transposeMatrix hop _ hmatrix) (sameValue_pure hmatrix)

theorem sameValue_toMatrix (hop : op.ReadsAlike mirror.alike op') (side : String)
    (hvalue : operand.value ∈ live) :
    mirror.SameValue live (operand.toMatrix op side)
      ((batchOperand.move mirror.offset operand).toMatrix op' side) := by
  apply (sameValue_reshapeTo hop hvalue [operand.rows, operand.columns] _).bind
  intro matrix
  exact sameValue_oriented hop operand side (List.mem_cons_self ..)

theorem sameValue_flattened (hop : op.ReadsAlike mirror.alike op') (side : String)
    (hvalue : operand.value ∈ live) :
    mirror.SameValue live (operand.flattened op side)
      ((batchOperand.move mirror.offset operand).flattened op' side) :=
  sameValue_reshapeTo hop hvalue _ _

theorem sameValue_matrixAt (hop : op.ReadsAlike mirror.alike op') (operand : Lowering.BatchOperand)
    {flat : Handle} (position : Nat) (side : String) (hflat : flat ∈ live) :
    mirror.SameValue live (operand.matrixAt op flat position side)
      ((batchOperand.move mirror.offset operand).matrixAt op' (flat.shift mirror.offset) position
        side) := by
  refine SameValue.bind (sameValue_build hop ⟨fun _ => rfl, fun _ => rfl, hop.nodeName_eq _,
    trivial, by simp [NodeKind.operands, hflat]⟩) fun slice => ?_
  refine SameValue.bind (sameValue_build hop ⟨fun _ => rfl, fun _ => rfl, hop.nodeName_eq _,
    trivial, by simp [NodeKind.operands]⟩) fun matrix => ?_
  exact sameValue_oriented hop operand _ (List.mem_cons_self ..)

theorem inStep_matrixSource (hop : op.ReadsAlike mirror.alike op') (count : Nat) (side : String)
    (hvalue : operand.value ∈ live) :
    mirror.InStep live matrixSource (Lowering.matrixSource op operand count side)
      (Lowering.matrixSource op' (batchOperand.move mirror.offset operand) count side) := by
  apply InStep.ite
  · apply (sameValue_toMatrix hop side hvalue).bind
    intro matrix
    exact inStep_pure rfl (List.cons_subset_cons matrix (List.nil_subset live))
  · apply (sameValue_flattened hop side hvalue).bind
    intro flat
    exact inStep_pure rfl (List.cons_subset_cons flat (List.nil_subset live))

theorem sameValue_matrixFrom (hop : op.ReadsAlike mirror.alike op')
    (operand : Lowering.BatchOperand) {source : Lowering.MatrixSource} (position : Nat)
    (side : String) (hsource : matrixSource.values source ⊆ live) :
    mirror.SameValue live (Lowering.matrixFrom op operand source position side)
      (Lowering.matrixFrom op' (batchOperand.move mirror.offset operand)
        (matrixSource.move mirror.offset source) position side) := by
  cases source with
  | sliced flat =>
      exact sameValue_matrixAt hop operand position side (hsource (List.mem_singleton_self flat))
  | shared matrix => exact sameValue_pure (hsource (List.mem_singleton_self matrix))

end

section

variable {lhs rhs : Lowering.BatchOperand}

theorem sameValue_productPerPosition (hop : op.ReadsAlike mirror.alike op') (batch : List Nat)
    (hlhs : lhs.value ∈ live) (hrhs : rhs.value ∈ live) :
    mirror.SameValue live (Lowering.productPerPosition op lhs rhs batch)
      (Lowering.productPerPosition op' (batchOperand.move mirror.offset lhs)
        (batchOperand.move mirror.offset rhs) batch) := by
  unfold Lowering.productPerPosition
  apply (inStep_matrixSource hop (product batch) "lhs" hlhs).bind
  intro lhsSource
  apply (inStep_matrixSource hop (product batch) "rhs" (List.mem_append_right _ hrhs)).bind
  intro rhsSource
  refine SameValues.bind (InStep.mapM (List.forall₂_same.mpr fun position _ => ?_))
    fun products => ?_
  · have hsources : matrixSource.values lhsSource ⊆
        matrixSource.values rhsSource ++ (matrixSource.values lhsSource ++ live) :=
      List.subset_append_of_subset_right _ (List.subset_append_left _ live)
    apply (sameValue_matrixFrom hop lhs position "lhs" hsources).bind
    intro a
    apply (sameValue_matrixFrom hop rhs position "rhs"
      (List.subset_cons_of_subset a (List.subset_append_left ..))).bind
    intro b
    exact sameValue_build hop ⟨fun _ => rfl, fun _ => rfl, hop.nodeName_eq _, trivial,
      by simp [NodeKind.operands]⟩
  · cases products with
    | nil => exact inStep_throw (hop.shapeError_eq _)
    | cons first others =>
        apply (sameData_dimsOf op op' (List.mem_cons_self ..)).bind
        intro dims
        apply (sameData_extentAt hop dims 0).bind
        intro rows
        apply (sameData_extentAt hop dims 1).bind
        intro columns
        refine SameValue.bind (sameValue_build hop ⟨fun _ => rfl, fun _ => rfl,
          hop.nodeName_eq _, trivial, List.subset_append_left (first :: others) _⟩)
          fun joined => ?_
        exact sameValue_build hop ⟨fun _ => rfl, fun _ => rfl, hop.label_eq, trivial,
          by simp [NodeKind.operands]⟩

theorem sameValue_productWithSingle (hop : op.ReadsAlike mirror.alike op')
    (hlhs : lhs.value ∈ live) (hrhs : rhs.value ∈ live) :
    mirror.SameValue live (Lowering.productWithSingle op lhs rhs)
      (Lowering.productWithSingle op' (batchOperand.move mirror.offset lhs)
        (batchOperand.move mirror.offset rhs)) := by
  unfold Lowering.productWithSingle
  extract_lets axes rank units rest axes' rank' units' rest'
  have hrest (a : Handle) : mirror.SameValue (a :: live) (rest a)
      (rest' (a.shift mirror.offset)) := by
    apply (sameValue_reshapeTo hop (List.mem_cons_self ..) _ "lhs_2d").bind
    intro a
    apply (sameValue_toMatrix hop "rhs" (by simp [hrhs])).bind
    intro b
    refine SameValue.bind (sameValue_build hop ⟨fun _ => rfl, fun _ => rfl, hop.nodeName_eq _,
      trivial, by simp [NodeKind.operands]⟩) fun result => ?_
    apply (sameData_dimsOf op op' (List.mem_cons_self ..)).bind
    intro dims
    apply (sameData_extentAt hop dims 1).bind
    intro columns
    exact sameValue_reshapeTo hop (List.mem_cons_self ..) _ "reshape"
  apply InStep.ite
  · exact SameValue.bind (sameValue_build hop ⟨fun _ => rfl, fun _ => rfl, hop.nodeName_eq _,
      trivial, by simp [NodeKind.operands, hlhs]⟩) hrest
  · exact (sameValue_pure hlhs).bind hrest

theorem sameValue_batchProduct (hop : op.ReadsAlike mirror.alike op') (broadcast : Bool)
    (hlhs : lhs.value ∈ live) (hrhs : rhs.value ∈ live) :
    mirror.SameValue live (Lowering.batchProduct op broadcast lhs rhs)
      (Lowering.batchProduct op' broadcast (batchOperand.move mirror.offset lhs)
        (batchOperand.move mirror.offset rhs)) := by
  unfold Lowering.batchProduct
  extract_lets units rest units' rest'
  have hrest : mirror.SameValue live (rest ()) (rest' ()) := by
    apply InStep.ite
    · apply (sameValue_toMatrix hop "lhs" hlhs).bind
      intro a
      apply (sameValue_toMatrix hop "rhs" (List.mem_cons_of_mem a hrhs)).bind
      intro b
      exact sameValue_build hop ⟨fun _ => rfl, fun _ => rfl, hop.label_eq, trivial,
        by simp [NodeKind.operands]⟩
    · apply InStep.ite (sameValue_productPerPosition hop _ hlhs hrhs)
      apply InStep.ite (inStep_throw (hop.shapeError_eq _))
      apply InStep.ite (sameValue_productWithSingle hop hlhs hrhs)
      apply InStep.ite (sameValue_productPerPosition hop _ hlhs hrhs)
      exact inStep_throw (hop.shapeError_eq _)
  exact .ite (inStep_throw_bind (hop.shapeError_eq _)) hrest

end

theorem sameData_batchMatMul (hop : op.ReadsAlike mirror.alike op') :
    mirror.SameData live (Lowering.batchMatMul op) (Lowering.batchMatMul op') := by
  apply (sameData_ofExcept (hop.flagArg "trans_a")).bind
  intro transA
  apply (sameData_ofExcept (hop.flagArg "trans_b")).bind
  intro transB
  apply (sameData_ofExcept (hop.flagArg "broadcast")).bind
  intro broadcast
  apply (sameValue_input hop 0).bind
  intro a
  apply (sameValue_input hop 1).bind
  intro b
  apply (inStep_read hop transA (by simp : a ∈ _)).bind
  intro lhs
  apply (inStep_read hop transB (by simp : b ∈ _)).bind
  intro rhs
  apply (sameValue_batchProduct hop broadcast (by simp [batchOperand])
    (by simp [batchOperand])).bind
  intro result
  exact sameData_bindOutput hop 0 (List.mem_cons_self ..)

/-! ## Convolution and pooling -/

theorem sameValue_toChannelsFirst (hop : op.ReadsAlike mirror.alike op')
    (order : Lowering.StorageOrder) {value : Handle} (suffix : String) (hvalue : value ∈ live) :
    mirror.SameValue live (Lowering.toChannelsFirst op order value suffix)
      (Lowering.toChannelsFirst op' order (value.shift mirror.offset) suffix) := by
  cases order with
  | channelsFirst => exact sameValue_pure hvalue
  | channelsLast =>
      exact sameValue_build hop ⟨fun _ => rfl, fun _ => rfl, hop.nodeName_eq _, trivial,
        by simp [NodeKind.operands, hvalue]⟩

theorem sameData_bindResult (hop : op.ReadsAlike mirror.alike op')
    (order : Lowering.StorageOrder) {value : Handle} (hvalue : value ∈ live) :
    mirror.SameData live (Lowering.bindResult op order value)
      (Lowering.bindResult op' order (value.shift mirror.offset)) := by
  cases order with
  | channelsFirst => exact sameData_bindOutput hop 0 hvalue
  | channelsLast =>
      refine SameValue.bind (sameValue_build hop ⟨fun _ => rfl, fun _ => rfl, hop.nodeName_eq _,
        trivial, by simp [NodeKind.operands, hvalue]⟩) fun result => ?_
      exact sameData_bindOutput hop 0 (List.mem_cons_self ..)

theorem sameData_requireRankFour (hop : op.ReadsAlike mirror.alike op') (what : String)
    {value : Handle} (hvalue : value ∈ live) :
    mirror.SameData live (Lowering.requireRankFour op what value)
      (Lowering.requireRankFour op' what (value.shift mirror.offset)) := by
  apply (sameData_dimsOf op op' hvalue).bind
  intro dims
  exact .ite (inStep_throw (hop.shapeError_eq _)) (sameData_pure _)

theorem sameData_imagePlane (hop : op.ReadsAlike mirror.alike op') {value : Handle}
    (hvalue : value ∈ live) :
    mirror.SameData live (Lowering.imagePlane op value)
      (Lowering.imagePlane op' (value.shift mirror.offset)) := by
  apply (sameData_dimsOf op op' hvalue).bind
  intro dims
  apply (sameData_extentAt hop dims 2).bind
  intro height
  apply (sameData_extentAt hop dims 3).bind
  intro width
  exact sameData_pure _

theorem sameData_convolution (hop : op.ReadsAlike mirror.alike op') :
    mirror.SameData live (Lowering.convolution op) (Lowering.convolution op') := by
  apply (sameData_ofExcept hop.storageOrder).bind
  intro order
  apply (sameData_ofExcept hop.windowArgs).bind
  intro window
  apply (sameData_ofExcept (hop.naturalArg "group" 1)).bind
  intro group
  apply (sameValue_input hop 0).bind
  intro input
  apply (sameValue_input hop 1).bind
  intro weight
  apply (inStep_optionalInput hop 2).bind
  intro bias
  apply (sameData_requireRankFour hop "input" (by simp : input ∈ _)).bind
  intro _
  apply (sameData_requireRankFour hop "filter" (by simp : weight ∈ _)).bind
  intro _
  apply (sameValue_toChannelsFirst hop order "input_nchw" (by simp : input ∈ _)).bind
  intro value
  apply (sameValue_toChannelsFirst hop order "filter_nchw" (by simp : weight ∈ _)).bind
  intro filter
  apply (sameData_imagePlane hop (List.mem_cons_self ..)).bind
  intro plane
  refine SameValue.bind (sameValue_build hop ⟨fun _ => rfl, fun _ => rfl, hop.label_eq, trivial,
    by simp +contextual [NodeKind.operands, Cargo.optional, List.subset_def]⟩) fun result => ?_
  exact sameData_bindResult hop order (List.mem_cons_self ..)

theorem sameData_pooling (mode : PoolMode) (hop : op.ReadsAlike mirror.alike op') :
    mirror.SameData live (Lowering.pooling mode op) (Lowering.pooling mode op') := by
  apply (sameData_ofExcept hop.storageOrder).bind
  intro order
  apply (sameData_ofExcept hop.windowArgs).bind
  intro args
  apply (sameData_ofExcept (hop.flagArg "global_pooling")).bind
  intro global
  apply (sameValue_input hop 0).bind
  intro input
  apply (sameData_requireRankFour hop "input" (List.mem_cons_self ..)).bind
  intro _
  apply (sameValue_toChannelsFirst hop order "input_nchw" (List.mem_cons_self ..)).bind
  intro value
  apply (sameData_imagePlane hop (List.mem_cons_self ..)).bind
  intro plane
  extract_lets rest rest'
  have hrest (window : Window) : mirror.SameData (value :: input :: live) (rest window)
      (rest' window) := by
    refine SameValue.bind (sameValue_build hop ⟨fun _ => rfl, fun _ => rfl, hop.label_eq,
      trivial, by simp [NodeKind.operands]⟩) fun result => ?_
    exact sameData_bindResult hop order (List.mem_cons_self ..)
  apply InStep.ite (inStep_pure_bind (hrest _))
  split
  · exact inStep_pure_bind (hrest _)
  · exact inStep_throw_bind (hop.malformed_eq _ _)

/-! ## Every operator -/

/-- The auxiliary constant of an operator, where it has one, has a name that is free further
on. -/
def FreesAuxiliary (mirror : Mirroring) (op : Operator) : Prop :=
  ∀ name, op.auxiliary? = some name →
    mirror.before.findVariable? (Lowering.nodeName op name) = none

theorem sameData_ofKind {kind : OperatorKind} (hop : op.ReadsAlike mirror.alike op')
    (hkind : OperatorKind.parse? op.kind = some kind) (hfree : mirror.FreesAuxiliary op) :
    mirror.SameData live (Lowering.ofKind kind op) (Lowering.ofKind kind op') := by
  cases kind with
  | conv => exact sameData_convolution hop
  | maxPool => exact sameData_pooling .max hop
  | averagePool => exact sameData_pooling .average hop
  | concat =>
      have hauxiliary : op.auxiliary? = op.outputs[1]? := by
        simp [Operator.auxiliary?, hkind, OperatorKind.hasAuxiliary]
      exact sameData_concat hop fun name hname => hfree name (hauxiliary.trans hname)
  | batchMatMul => exact sameData_batchMatMul hop
  | matMul => exact sameData_matMul hop
  | fullyConnected => exact sameData_fullyConnected false hop
  | fullyConnectedTransposed => exact sameData_fullyConnected true hop
  | clip => exact sameData_clip hop
  | replaceNaN => exact sameData_replaceNaN hop
  | relu => exact sameData_unary .relu hop
  | sigmoid => exact sameData_unary .sigmoid hop
  | tanh => exact sameData_unary .tanh hop
  | softmax => exact sameData_softmax hop
  | add => exact sameData_arithmetic .add hop
  | sub => exact sameData_arithmetic .sub hop
  | mul => exact sameData_arithmetic .mul hop
  | div => exact sameData_arithmetic .div hop
  | sum => exact sameData_sum hop
  | transpose => exact sameData_transpose hop
  | reshape =>
      have hauxiliary : op.auxiliary? = op.outputs[1]? := by
        simp [Operator.auxiliary?, hkind, OperatorKind.hasAuxiliary]
      exact sameData_reshape hop fun name hname => hfree name (hauxiliary.trans hname)
  | flatten => exact sameData_flatten hop
  | dropout => exact sameData_dropout hop

theorem sameData_operator (hop : op.ReadsAlike mirror.alike op')
    (hfree : mirror.FreesAuxiliary op) :
    mirror.SameData live (Lowering.operator op) (Lowering.operator op') := by
  unfold Lowering.operator
  rw [hop.kind_eq]
  split
  · exact inStep_throw rfl
  · next kind hkind => exact sameData_ofKind hop hkind hfree

end Mirroring
end NetImport
