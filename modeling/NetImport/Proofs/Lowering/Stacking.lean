import NetImport.Proofs.Kernel.Stacking
import NetImport.Proofs.Lowering.Carried

/-!
# Concatenation along a new axis
-/

namespace NetImport

/-- The outputs of a concatenation along a new axis are bound to the stacked operands and to a
one for each of them. -/
structure Workspace.BindsStacked (last : Workspace) (op : Operator) (bindings : Bindings)
    (given : Prop) (tensors : List Tensor) (dtype : DType) (dims : List Nat) (place : Nat) :
    Prop where
  stacked : ∃ name value result, op.outputs[0]? = some name ∧ last.env.get? name = some value ∧
    last.Carries bindings given value result ∧
    result.type = ⟨dtype, ⟨dims.insertIdx place tensors.length⟩⟩ ∧
    ∀ (index : Nat) (tensor : Tensor), tensors[index]? = some tensor →
      ∀ coords, inBounds dims coords → ∃ x,
        result.at? dtype (coords.insertIdx place index) = some x ∧
        tensor.at? dtype coords = some x
  ones : ∀ name, op.outputs[1]? = some name → ∃ constant, last.env.get? name = some constant ∧
    last.IsConstant constant (.ofList .i32 (List.replicate tensors.length 1))

namespace Lowering

variable {work last : Workspace} {bindings : Bindings} {given : Prop} {op : Operator}
  {values : List Handle} {tensors : List Tensor} {dtype : DType} {dims : List Nat} {axis : Nat}

/-- Every value gets a last axis of extent one. -/
theorem succeeds_expandAll (hvalues : List.Forall₂ (work.Carries bindings given) values tensors)
    (htypes : ∀ tensor ∈ tensors, tensor.type = ⟨dtype, ⟨dims⟩⟩) (position : Nat) :
    Succeeds (expandAll op (dims ++ [1]) position values) work fun results last =>
      ∃ expanded, List.Forall₂ (last.Carries bindings given) results expanded ∧
        List.Forall₂ (Kernel.Expands dtype dims) tensors expanded := by
  induction values generalizing work tensors position with
  | nil =>
      cases hvalues
      exact succeeds_pure ⟨[], .nil, .nil⟩
  | cons value values ih =>
      cases hvalues with
      | @cons _ tensor _ tensors hvalue hvalues =>
          obtain ⟨htype, htypes⟩ := List.forall_mem_cons.mp htypes
          obtain ⟨expanded, hreshape, hexpands⟩ := Kernel.exists_expanded htype
          refine succeedsIff_bind_of_succeeds (succeeds_reshapeNode hvalue hreshape) ?_
          intro result next hnext hresult
          have hothers := hvalues.imp fun _ _ hother => hother.mono hnext.grows
          refine succeedsIff_bind_of_succeeds (ih hothers htypes (position + 1)) ?_
          rintro results last hlast ⟨others, hresults, hexpanded⟩
          exact succeeds_pure
            ⟨expanded :: others, .cons (hresult.mono hlast.grows) hresults, .cons hexpands hexpanded⟩

theorem succeeds_stack (hne : tensors ≠ [])
    (hvalues : List.Forall₂ (work.Carries bindings given) values tensors)
    (htypes : ∀ tensor ∈ tensors, tensor.type = ⟨dtype, ⟨dims⟩⟩) (haxis : axis ≤ dims.length) :
    Succeeds (stack op values dims axis) work fun value last =>
      ∃ stacked, last.Carries bindings given value stacked ∧
        stacked.StacksAlong dtype (dims.take axis) (dims.drop axis) tensors := by
  have hlength : values.length = tensors.length := hvalues.length_eq
  refine succeedsIff_bind_of_run (run_splitAt haxis) ?_
  dsimp only
  by_cases hbefore : axis < dims.length
  -- joined along the axis that stands there, which is then split
  · have hsplit : dims = dims.take axis ++ dims[axis] :: dims.drop (axis + 1) := by
      rw [List.getElem_cons_drop, List.take_append_drop]
    have hinner : dims.drop axis = dims[axis] :: dims.drop (axis + 1) :=
      List.drop_eq_getElem_cons hbefore
    have houter : (dims.take axis).length = axis := List.length_take_of_le haxis
    rw [hsplit] at htypes
    obtain ⟨joined, stacked, hconcat, hreshape, hstacks⟩ :=
      Kernel.exists_stacked_before hne htypes
    rw [houter] at hconcat
    rw [if_pos hbefore, hinner, hlength]
    refine succeedsIff_bind_of_succeeds (succeeds_concatNode hvalues hconcat) ?_
    intro value next hnext hjoined
    refine (succeeds_reshapeNode hjoined hreshape).mono fun _ _ hvalue => ?_
    exact ⟨stacked, hvalue, hstacks⟩
  -- after the last axis there is none to join along before the operands are expanded
  · obtain rfl : axis = dims.length := by omega
    rw [if_neg hbefore, List.take_length, List.drop_length]
    refine succeedsIff_bind_of_succeeds (succeeds_expandAll hvalues htypes 0) ?_
    rintro results next hnext ⟨expanded, hresults, hexpanded⟩
    obtain ⟨stacked, hconcat, hstacks⟩ := Kernel.exists_stacked_after hne hexpanded
    refine (succeeds_concatNode hresults hconcat).mono fun _ _ hvalue => ?_
    exact ⟨stacked, hvalue, hstacks⟩

theorem run_concat_of_addAxis {axis : Int} (hflag : op.flagArg "add_axis" = .ok true)
    (haxis : concatAxis op = .ok axis) (hne : tensors ≠ [])
    (hnames : List.Forall₂ (fun name value => work.env.get? name = some value) op.inputs values)
    (hvalues : List.Forall₂ (work.Carries bindings given) values tensors)
    (htypes : ∀ tensor ∈ tensors, tensor.type = ⟨dtype, ⟨dims⟩⟩)
    (hlow : -(dims.length + 1 : Nat) ≤ axis) (hhigh : axis < (dims.length + 1 : Nat)) :
    (concat op).run.run work =
      (stack op values dims (axisPlace axis (dims.length + 1)) >>=
        bindBoth op (splitInfo op (List.replicate tensors.length 1))).run.run work := by
  have hinputs : op.inputs ≠ [] := inputs_ne_nil hnames hvalues hne
  have hshapes : (tensors.map fun tensor => tensor.shape.dims) =
      List.replicate tensors.length dims := by
    apply List.map_eq_replicate_iff.mpr
    exact fun tensor hmem => congrArg TensorType.dims (htypes tensor hmem)
  -- the search for other extents than those of the first operand
  have hequal : (List.replicate tensors.length dims).find?
      (fun found => decide (found ≠ dims)) = none := by
    simp
  have hones : (List.replicate tensors.length dims).map (fun _ => 1) =
      List.replicate tensors.length 1 := List.map_replicate
  rw [concat, run_bind_of_run (run_ofExcept hflag), run_bind_of_run (run_ofExcept haxis),
    run_bind_of_run (run_allInputs hinputs hnames), run_bind_of_run (run_dimsOf_all hvalues),
    hshapes]
  obtain ⟨first, others, rfl⟩ := List.exists_cons_of_ne_nil hne
  rw [List.length_cons, List.replicate_succ] at hequal hones ⊢
  dsimp only
  rw [if_pos rfl, run_bind_of_run (run_canonicalAxis hlow hhigh), hequal]
  simp only [pure_bind, hones]
  rfl

/-! ## The constant of the second output -/

/-- The extents are listed when they have 32 bits, each one as it is. -/
theorem splitInfo_eq_ok_iff {extents : List Nat} {tensor : Tensor} :
    splitInfo op extents = .ok tensor ↔
      (∀ extent ∈ extents, (extent : Int) ∈ IntRange.signed32) ∧
        tensor = Tensor.ofList .i32 (extents.map fun (extent : Nat) => Int32.ofInt extent) := by
  have hall (hfits : ∀ extent ∈ extents, (extent : Int) ∈ IntRange.signed32) :
      splitInfo op extents =
        .ok (Tensor.ofList .i32 (extents.map fun (extent : Nat) => Int32.ofInt extent)) := by
    refine bind_eq_ok_iff.mpr ⟨extents.map fun (extent : Nat) => Int32.ofInt extent, ?_, rfl⟩
    apply mapM_eq_ok_map
    intro extent hextent
    rw [DType.ofInt?, if_pos (hfits extent hextent)]
  constructor
  · intro hlisted
    have hfits : ∀ extent ∈ extents, (extent : Int) ∈ IntRange.signed32 := by
      intro extent hextent
      obtain ⟨elements, helements, -⟩ := bind_eq_ok_iff.mp hlisted
      obtain ⟨element, -, helement⟩ := exists_mem_of_mapM_eq_ok helements hextent
      by_contra hbeyond
      rw [DType.ofInt?, if_neg hbeyond] at helement
      cases helement
    exact ⟨hfits, Except.ok.inj (hlisted.symm.trans (hall hfits))⟩
  · rintro ⟨hfits, rfl⟩
    exact hall hfits

theorem insertIdx_length {α : Type} (before after : List α) (x : α) :
    (before ++ after).insertIdx before.length x = before ++ x :: after := by
  induction before with
  | nil => rfl
  | cons y before ih => simp [ih]

theorem insertIdx_eq {α : Type} {entries : List α} {place : Nat} (hplace : place ≤ entries.length)
    (x : α) : entries.insertIdx place x = entries.take place ++ x :: entries.drop place := by
  have hlength : (entries.take place).length = place := List.length_take_of_le hplace
  have hinsert := insertIdx_length (entries.take place) (entries.drop place) x
  rwa [hlength, List.take_append_drop] at hinsert

theorem splitInfo_ones (op : Operator) (count : Nat) :
    splitInfo op (List.replicate count 1) = .ok (Tensor.ofList .i32 (List.replicate count 1)) := by
  rw [splitInfo_eq_ok_iff, List.map_replicate]
  refine ⟨fun extent hextent => ?_, rfl⟩
  rw [List.eq_of_mem_replicate hextent]
  decide

/-! ## Stacked values -/

/-- The extents and the elements of stacked tensors, by the place of the new axis. -/
theorem stacked_by_place {stacked : Tensor} {place : Nat} (hplace : place ≤ dims.length)
    (hstacks : stacked.StacksAlong dtype (dims.take place) (dims.drop place) tensors) :
    stacked.type = ⟨dtype, ⟨dims.insertIdx place tensors.length⟩⟩ ∧
      ∀ (index : Nat) (tensor : Tensor), tensors[index]? = some tensor →
        ∀ coords, inBounds dims coords → ∃ x,
          stacked.at? dtype (coords.insertIdx place index) = some x ∧
          tensor.at? dtype coords = some x := by
  rw [insertIdx_eq hplace]
  refine ⟨hstacks.type_eq, fun index tensor htensor coords hcoords => ?_⟩
  have hlength : coords.length = dims.length := length_of_inBounds hcoords
  have hplace' : place ≤ coords.length := hlength.symm ▸ hplace
  have htake : (coords.take place).length = (dims.take place).length := by
    simp [hlength]
  rw [← List.take_append_drop place dims, ← List.take_append_drop place coords,
    inBounds_append_iff htake] at hcoords
  have helement := hstacks.element htensor _ _ hcoords.1 hcoords.2
  rwa [← insertIdx_eq hplace', List.take_append_drop] at helement

section Runs

variable {axis : Int} (hflag : op.flagArg "add_axis" = .ok true) (haxis : concatAxis op = .ok axis)
  (hne : tensors ≠ [])
  (hnames : List.Forall₂ (fun name value => work.env.get? name = some value) op.inputs values)
  (hvalues : List.Forall₂ (work.Carries bindings given) values tensors)
  (htypes : ∀ tensor ∈ tensors, tensor.type = ⟨dtype, ⟨dims⟩⟩)
  (hlow : -(dims.length + 1 : Nat) ≤ axis) (hhigh : axis < (dims.length + 1 : Nat))
include hflag haxis hne hnames hvalues htypes hlow hhigh

theorem bindsStacked_of_run (hrun : (concat op).run.run work = (.ok (), last)) :
    last.BindsStacked op bindings given tensors dtype dims (axisPlace axis (dims.length + 1)) := by
  have hplace := axisPlace_le hhigh
  rw [run_concat_of_addAxis hflag haxis hne hnames hvalues htypes hlow hhigh] at hrun
  obtain ⟨value, next, hstack, hbind⟩ := run_bind_eq_ok_iff.mp hrun
  obtain ⟨-, -, stacked, hcarries, hstacks⟩ :=
    (succeeds_stack hne hvalues htypes hplace).ensures hstack
  obtain ⟨hgrows, ⟨name, hname, hvalue⟩, hsecond⟩ := bound_of_run_bindBoth hbind
  obtain ⟨htype, helements⟩ := stacked_by_place hplace hstacks
  refine ⟨⟨name, value, stacked, hname, hvalue, hcarries.mono hgrows, htype, helements⟩, ?_⟩
  intro second hdeclared
  obtain ⟨tensor, constant, htensor, hconstant, hisConstant⟩ := hsecond second hdeclared
  obtain rfl := Except.ok.inj ((splitInfo_ones op _).symm.trans htensor)
  exact ⟨constant, hconstant, hisConstant⟩

theorem exists_run_concat_of_addAxis (hfree : work.FreeOutputs op) :
    ∃ last, (concat op).run.run work = (.ok (), last) := by
  have hplace := axisPlace_le hhigh
  have hstacks := @succeeds_stack work bindings given op values tensors dtype dims _ hne hvalues
    htypes hplace
  obtain ⟨value, next, hstack⟩ := hstacks.succeeds trivial
  have hcomputes := (hstacks.ensures hstack).2.1
  obtain ⟨last, hbind⟩ := exists_run_bindBoth (hfree.mono hcomputes)
    (fun _ => ⟨_, splitInfo_ones op tensors.length⟩) value
  rw [run_concat_of_addAxis hflag haxis hne hnames hvalues htypes hlow hhigh]
  exact ⟨last, run_bind_eq_ok_iff.mpr ⟨value, next, hstack, hbind⟩⟩

end Runs

/-- A concatenation along a new axis binds its output to the stacked operands, and a second
output to as many ones as there are operands.  It succeeds whenever the outputs are free. -/
theorem concat_stacks_operands {axis : Int}
    (hkind : OperatorKind.parse? op.kind = some .concat)
    (hflag : op.flagArg "add_axis" = .ok true) (haxis : concatAxis op = .ok axis)
    (hne : tensors ≠ [])
    (hnames : List.Forall₂ (fun name value => work.env.get? name = some value) op.inputs values)
    (hvalues : List.Forall₂ (work.Carries bindings given) values tensors)
    (htypes : ∀ tensor ∈ tensors, tensor.type = ⟨dtype, ⟨dims⟩⟩)
    (hlow : -(dims.length + 1 : Nat) ≤ axis) (hhigh : axis < (dims.length + 1 : Nat)) :
    (∀ last, (operator op).run.run work = (.ok (), last) →
      last.BindsStacked op bindings given tensors dtype dims
        (axisPlace axis (dims.length + 1))) ∧
    (work.FreeOutputs op → ∃ last, (operator op).run.run work = (.ok (), last)) := by
  rw [operator_eq hkind]
  constructor
  · intro last hrun
    exact bindsStacked_of_run hflag haxis hne hnames hvalues htypes hlow hhigh hrun
  · intro hfree
    exact exists_run_concat_of_addAxis hflag haxis hne hnames hvalues htypes hlow hhigh hfree

/-- Two rows, stacked as the columns of a matrix. -/
def columnStack : Operator :=
  ⟨"Concat", ["a", "b"], ["y", "info"], none,
    ⟨[("add_axis", .int 1), ("axis", .int (-1))], List.pairwise_pair.mpr (by decide)⟩⟩

def columnStackOperands : Workspace where
  graph := ⟨"columns", #[
    ⟨"a", .variable .placeholder ⟨.i32, ⟨[3]⟩⟩, [⟨.i32, ⟨[3]⟩⟩]⟩,
    ⟨"b", .variable .placeholder ⟨.i32, ⟨[3]⟩⟩, [⟨.i32, ⟨[3]⟩⟩]⟩]⟩
  env := ⟨[("a", .first 0), ("b", .first 1)], by decide⟩

theorem columnStack_stacks_operands :
    ∃ last value result, (operator columnStack).run.run columnStackOperands = (.ok (), last) ∧
      last.env.get? "y" = some value ∧
      last.Carries (.ofList [("a", .ofList .i32 [1, 2, 3]), ("b", .ofList .i32 [4, 5, 6])]) True
        value result ∧
      result.type = ⟨.i32, ⟨[3, 2]⟩⟩ ∧ result.at? .i32 [2, 1] = some 6 ∧
      ∃ constant, last.env.get? "info" = some constant ∧
        last.IsConstant constant (.ofList .i32 [1, 1]) := by
  have hvalues : List.Forall₂ (columnStackOperands.Carries
      (.ofList [("a", .ofList .i32 [1, 2, 3]), ("b", .ofList .i32 [4, 5, 6])]) True)
      [.first 0, .first 1] [.ofList .i32 [1, 2, 3], .ofList .i32 [4, 5, 6]] :=
    .cons ⟨rfl, fun _ => (Graph.evaluate_eq _ _ rfl).trans rfl⟩
      (.cons ⟨rfl, fun _ => (Graph.evaluate_eq _ _ rfl).trans rfl⟩ .nil)
  have htypes : ∀ tensor ∈ [Tensor.ofList .i32 [1, 2, 3], .ofList .i32 [4, 5, 6]],
      tensor.type = ⟨.i32, ⟨[3]⟩⟩ :=
    List.forall_mem_cons.mpr ⟨rfl, List.forall_mem_cons.mpr ⟨rfl, nofun⟩⟩
  obtain ⟨hbinds, hsucceeds⟩ := @concat_stacks_operands columnStackOperands _ _ columnStack _ _ _ _
    (-1) rfl rfl rfl (List.cons_ne_nil _ _) (.cons rfl (.cons rfl .nil)) hvalues htypes
    (by decide) (by decide)
  obtain ⟨last, hrun⟩ :=
    hsucceeds (Workspace.freeOutputs_of_names rfl rfl rfl (by decide) (by decide))
  obtain ⟨⟨name, value, result, hname, hvalue, hcarries, htype, helements⟩, hones⟩ :=
    hbinds last hrun
  obtain rfl : "y" = name := Option.some.inj hname
  obtain ⟨x, hx, helement⟩ := helements 1 _ rfl [2] rfl
  exact ⟨last, value, result, hrun, hvalue, hcarries, htype, hx.trans helement.symm,
    hones "info" rfl⟩

end Lowering
end NetImport
