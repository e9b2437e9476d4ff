import NetImport.Proofs.Kernel.Normalized
import NetImport.Proofs.Lowering.FlatProducts
import NetImport.Proofs.Lowering.TwoOutputs

/-!
# Softmax at an axis

The elements of a tensor that share their coordinates before an axis are a group, which is a
row once the tensor is split into a matrix at the axis.  Softmax normalizes these rows.
-/

namespace NetImport

namespace Tensor

variable {tensor : Tensor} {dims before after coords coords' : List Nat}
  {element : Nat → Nat → Nat → Float32}

/-- The elements at the coordinates that begin with `outer`, in row-major order of the ones
that are left. -/
def group? (tensor : Tensor) (inner outer : List Nat) : Option (List Float32) :=
  (Shape.coordinates ⟨inner⟩).mapM fun coords => tensor.at? .f32 (outer ++ coords)

/-- An element of a tensor that is split into a matrix. -/
theorem Stacks.at?_split (hdims : before ++ after = dims)
    (hstacks : tensor.Stacks dims
      ⟨1, NetImport.product before, NetImport.product after, element⟩)
    (hcoords : inBounds before coords) (hcoords' : inBounds after coords') :
    tensor.at? .f32 (coords ++ coords') =
      some (element 0 (offset before coords) (offset after coords')) := by
  subst hdims
  obtain ⟨data, hsize, rfl, -, hcells⟩ := hstacks
  have hlength : coords.length = before.length := length_of_inBounds hcoords
  have hinside : inBounds (before ++ after) (coords ++ coords') :=
    (inBounds_append_iff hlength).mpr ⟨hcoords, hcoords'⟩
  have hindex : Shape.flatIndex? ⟨before ++ after⟩ (coords ++ coords') =
      some (offset (before ++ after) (coords ++ coords')) := if_pos hinside
  have hcell := hcells 0 _ _ Nat.one_pos (offset_lt hcoords) (offset_lt hcoords')
  rw [Nat.zero_mul, Nat.zero_add, ← offset_append _ _ hlength] at hcell
  rw [at?, hindex]
  exact hcell

/-- A group is a row of the matrix. -/
theorem Stacks.group?_eq (hdims : before ++ after = dims)
    (hstacks : tensor.Stacks dims
      ⟨1, NetImport.product before, NetImport.product after, element⟩)
    (hcoords : inBounds before coords) :
    tensor.group? after coords = some (MatrixStack.row
      ⟨1, NetImport.product before, NetImport.product after, element⟩ 0
      (offset before coords)) := by
  have hcells : ∀ coords' ∈ Shape.coordinates ⟨after⟩, tensor.at? .f32 (coords ++ coords') =
      some (element 0 (offset before coords) (offset after coords')) :=
    fun coords' hmem => hstacks.at?_split hdims hcoords (Shape.mem_coordinates_iff.mp hmem)
  have hplaces : (Shape.coordinates ⟨after⟩).map (offset after) =
      List.range (NetImport.product after) := Shape.map_offset_coordinates ⟨after⟩
  rw [group?, mapM_eq_some_map hcells, MatrixStack.row, ← hplaces, List.map_map]
  rfl

end Tensor

namespace Lowering

variable {work : Workspace} {bindings : Bindings} {given : Prop} {op : Operator} {name : String}
  {value : Handle} {dims : List Nat} {axis : Int}

theorem succeeds_softmaxNode {rows columns : Nat} {element : Nat → Nat → Nat → Float32}
    (hvalue : work.Holds bindings given value [rows, columns] ⟨1, rows, columns, element⟩) :
    Succeeds (build op fun graph => graph.softmax name value) work fun value last =>
      last.Holds bindings given value [rows, columns]
        (MatrixStack.normalized ⟨1, rows, columns, element⟩) := by
  refine succeedsIff_build_stack (fun _ => rfl) trivial (fun types => ?_) fun _ hgiven => ?_
  · have htype : Typing.operand work.graph.nodes value = .ok ⟨.f32, ⟨[rows, columns]⟩⟩ :=
      hvalue.type_eq
    simp [Typing.infer, htype, Typing.softmaxType, Shape.rank, @eq_comm _ _ types]
  · obtain ⟨tensor, htensor, hstacks⟩ := hvalue.evaluates hgiven
    simp only [Engine.applyKernel, htensor, ok_bind]
    exact Kernel.softmax_stacks hstacks

theorem bindsIff_softmax (hinput : work.HasInput op 0 value ⟨.f32, ⟨dims⟩⟩)
    (haxis : op.intArg "axis" 1 = .ok axis) {place : Nat}
    (hplace : place = axisPlace axis dims.length) {element : Nat → Nat → Nat → Float32}
    (hvalue : work.Holds bindings given value dims ⟨1, product (dims.take place),
      product (dims.drop place), element⟩) :
    BindsIff op (softmax op) work (-dims.length ≤ axis ∧ axis < dims.length) fun result last =>
      last.Holds bindings given result dims (MatrixStack.normalized
        ⟨1, product (dims.take place), product (dims.drop place), element⟩) := by
  unfold softmax
  have hdims : (dimsOf op value).run.run work = (.ok dims, work) := run_dimsOf hinput.typed
  refine bindsIff_bind_of_run (run_input hinput) ?_
  refine bindsIff_bind_of_run hdims ?_
  refine bindsIff_bind_of_run (run_ofExcept haxis) ?_
  refine BindsIff.of_iff (bindsIff_bind succeedsIff_canonicalAxis ?_) (and_iff_left trivial)
  rintro found next - ⟨hfound, hbelow, rfl⟩
  obtain rfl : found = place := hfound.trans hplace.symm
  have hextents : (matrixDims op dims found).run.run next =
      (.ok [product (dims.take found), product (dims.drop found)], next) := by
    rw [matrixDims, run_bind, run_splitAt (Nat.le_of_lt hbelow)]
    rfl
  have hproduct : product [product (dims.take found), product (dims.drop found)] =
      product dims := by
    simp [← product_append]
  refine bindsIff_bind_of_run hextents ?_
  refine bindsIff_bind_of_succeeds (succeeds_reshapeTo hvalue hproduct) ?_
  intro flat afterFlat _ hflat
  refine bindsIff_bind_of_succeeds (succeeds_softmaxNode hflat) ?_
  intro result afterRows _ hresult
  exact bindsIff_bind_bindOutput (succeeds_reshapeTo hresult hproduct.symm)
    fun env hvalue => hvalue.with_env env

/-- A value of the last workspace is a tensor that a value of the first stands for, with the
elements of each group normalized. -/
structure NormalizesGroups (work : Workspace) (value : Handle) (dims : List Nat) (place : Nat)
    (bindings : Bindings) (x : Tensor) (result : Handle) (last : Workspace) : Prop where
  typed : last.graph.valueType result = .ok ⟨.f32, ⟨dims⟩⟩
  evaluates : work.HasValue bindings value ⟨.f32, ⟨dims⟩⟩ x →
    ∃ y, last.HasValue bindings result ⟨.f32, ⟨dims⟩⟩ y ∧
      ∀ coords, inBounds dims coords → ∃ group element,
        x.group? (dims.drop place) (coords.take place) = some group ∧
        x.at? .f32 coords = some element ∧
        y.at? .f32 coords = some (Softmax.normalized group element)

/-- The rows of the split tensor are its groups. -/
theorem exists_group {x y : Tensor} {place : Nat} {element : Nat → Nat → Nat → Float32}
    (hx : x.Stacks dims ⟨1, product (dims.take place), product (dims.drop place), element⟩)
    (hy : y.Stacks dims (MatrixStack.normalized
      ⟨1, product (dims.take place), product (dims.drop place), element⟩))
    {coords : List Nat} (hcoords : inBounds dims coords) :
    ∃ group element, x.group? (dims.drop place) (coords.take place) = some group ∧
      x.at? .f32 coords = some element ∧
      y.at? .f32 coords = some (Softmax.normalized group element) := by
  have hdims : dims.take place ++ dims.drop place = dims := List.take_append_drop place dims
  have hlength : (coords.take place).length = (dims.take place).length := by
    rw [List.length_take, List.length_take, length_of_inBounds hcoords]
  have hsplit : inBounds (dims.take place ++ dims.drop place)
      (coords.take place ++ coords.drop place) := by
    rwa [List.take_append_drop, List.take_append_drop]
  obtain ⟨houter, hinner⟩ := (inBounds_append_iff hlength).mp hsplit
  have helement := hx.at?_split hdims houter hinner
  have hresult := hy.at?_split hdims houter hinner
  rw [List.take_append_drop] at helement hresult
  exact ⟨_, _, hx.group?_eq hdims houter, helement, hresult⟩

theorem bindsIff_normalizesGroups (hinput : work.HasInput op 0 value ⟨.f32, ⟨dims⟩⟩)
    (haxis : op.intArg "axis" 1 = .ok axis) (bindings : Bindings) (x : Tensor) :
    BindsIff op (softmax op) work (-dims.length ≤ axis ∧ axis < dims.length)
      (NormalizesGroups work value dims (axisPlace axis dims.length) bindings x) := by
  have hproduct : product dims = product (dims.take (axisPlace axis dims.length)) *
      product (dims.drop (axisPlace axis dims.length)) := by
    rw [← product_append, List.take_append_drop]
  obtain ⟨element, hstacks, hholds⟩ := @Workspace.exists_holds work bindings
    (work.HasValue bindings value ⟨.f32, ⟨dims⟩⟩ x) value dims x _ _ hinput.typed hproduct id
  refine (bindsIff_softmax hinput haxis rfl hholds).mono fun _ hresult => ?_
  refine ⟨hresult.type_eq, fun hgiven => ?_⟩
  obtain ⟨y, hy, hnormalized⟩ := hresult.evaluates hgiven
  exact ⟨y, ⟨hy, hnormalized.type_eq⟩, fun coords hcoords =>
    exists_group (hstacks hgiven) hnormalized hcoords⟩

/-- Softmax lowers for every axis in range, and normalizes the groups of elements that share
their coordinates before it. -/
theorem softmax_groups (hkind : OperatorKind.parse? op.kind = some .softmax)
    (hinput : work.HasInput op 0 value ⟨.f32, ⟨dims⟩⟩)
    (haxis : op.intArg "axis" 1 = .ok axis) :
    BindsIff op (operator op) work (-dims.length ≤ axis ∧ axis < dims.length)
      fun result last => ∀ bindings x,
        NormalizesGroups work value dims (axisPlace axis dims.length) bindings x result last := by
  rw [operator_eq hkind]
  refine BindsIff.forall fun bindings => BindsIff.forall fun x => ?_
  exact bindsIff_normalizesGroups hinput haxis bindings x

/-- Normalizes groups of six elements, which are split at the second axis from the end. -/
def groupSoftmax : Operator :=
  ⟨"Softmax", ["x"], ["y"], none, ⟨[("axis", .int (-2))], List.pairwise_singleton _ _⟩⟩

def groupOperand : Workspace where
  graph := ⟨"groups", #[
    ⟨"x", .variable .placeholder ⟨.f32, ⟨[2, 2, 3]⟩⟩, [⟨.f32, ⟨[2, 2, 3]⟩⟩]⟩]⟩
  env := ⟨[("x", .first 0)], List.nodup_singleton "x"⟩

def groupBindings : Bindings := .ofList [("x", Tensor.zeros .f32 ⟨[2, 2, 3]⟩)]

theorem groupOperand_softmax_groups :
    ∃ last value result,
      (operator groupSoftmax).run.run groupOperand = (.ok (), last) ∧
      last.env.get? "y" = some value ∧
      last.HasValue groupBindings value ⟨.f32, ⟨[2, 2, 3]⟩⟩ result ∧
      ∀ i < 2, ∀ j < 2, ∀ k < 3, ∃ group element,
        (Tensor.zeros .f32 ⟨[2, 2, 3]⟩).group? [2, 3] [i] = some group ∧
        (Tensor.zeros .f32 ⟨[2, 2, 3]⟩).at? .f32 [i, j, k] = some element ∧
        result.at? .f32 [i, j, k] = some (Softmax.normalized group element) := by
  have hx : groupOperand.HasValue groupBindings (.first 0) ⟨.f32, ⟨[2, 2, 3]⟩⟩
      (Tensor.zeros .f32 ⟨[2, 2, 3]⟩) := ⟨(Graph.evaluate_eq _ _ rfl).trans rfl, rfl⟩
  have hgroups := @softmax_groups groupOperand groupSoftmax (.first 0) [2, 2, 3] (-2) rfl
    ⟨⟨"x", rfl, rfl⟩, rfl⟩ rfl
  obtain ⟨last, hrun⟩ := hgroups.succeeds (by decide) ⟨"y", rfl, rfl⟩
  obtain ⟨-, name, value, hname, hvalue, hresult⟩ := hgroups.ensures hrun
  obtain rfl : "y" = name := Option.some.inj hname
  obtain ⟨result, htensor, hcells⟩ := (hresult groupBindings _).evaluates hx
  refine ⟨last, value, result, hrun, hvalue, htensor, fun i hi j hj k hk => ?_⟩
  exact hcells [i, j, k] (by simp [inBounds, hi, hj, hk])

end Lowering
end NetImport
