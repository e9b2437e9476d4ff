import NetImport.Proofs.Kernel.Words
import NetImport.Proofs.Lowering.Stacking

/-!
# Concatenation along an axis of the operands

A plain concatenation binds its output to the joined operands and lists their extents along the
axis in a second one.  The prefix sums of the extents are where slices of the joined tensor
give the operands back.
-/

namespace NetImport

open Kernel InPlace

/-- The outputs of a plain concatenation are bound to the joined operands and to their extents. -/
structure Workspace.BindsJoined (last : Workspace) (op : Operator) (bindings : Bindings)
    (given : Prop) (tensors : List Tensor) (axis : Nat) : Prop where
  joined : ∃ name value result, op.outputs[0]? = some name ∧ last.env.get? name = some value ∧
    last.Carries bindings given value result ∧ Kernel.concat tensors axis result = .ok result
  extents : ∀ name, op.outputs[1]? = some name → ∃ constant info,
    last.env.get? name = some constant ∧ last.IsConstant constant info ∧ info.dtype = .i32 ∧
    info.toInts? = some (tensors.map fun tensor => (extentAt axis tensor : Int))

namespace Lowering

variable {work last : Workspace} {bindings : Bindings} {given : Prop} {op : Operator}
  {values : List Handle} {first : Tensor} {tensors : List Tensor}

theorem exists_joined_of_run {name : String} {axis : Nat} {value : Handle}
    (hvalues : List.Forall₂ (work.Carries bindings given) values tensors)
    (hrun : (build op fun graph => graph.concat name values axis).run.run work =
      (.ok value, last)) :
    ∃ result, Kernel.concat tensors axis result = .ok result ∧
      last.Carries bindings given value result := by
  obtain ⟨types, hinfer, -⟩ := appends_of_run_append (fun _ => rfl) hrun
  have htypes : values.mapM (Typing.operand work.graph.nodes) = .ok (tensors.map Tensor.type) :=
    Workspace.types_of_carries hvalues
  simp only [Typing.infer, htypes, ok_bind] at hinfer
  obtain ⟨type, hjoined, -⟩ := bind_eq_ok_iff.mp hinfer
  rw [Typing.concatType_eq_ok_iff, List.map_map] at hjoined
  obtain ⟨hne, hdtype, hshape⟩ := hjoined
  -- a node is appended when it types, and operands of these types are what the kernel accepts
  have hcontract := Kernel.concat_contract tensors axis
  obtain ⟨result, hresult⟩ :=
    (@Contract.accepted_iff _ _ hcontract (Tensor.zeros type.dtype type.shape)).mpr
      ⟨by simpa using hne, fun tensor hmem => hdtype _ (List.mem_map_of_mem hmem), hshape⟩
  refine ⟨result, (hcontract.ignoresContents (hcontract.keepsType hresult)).trans hresult, ?_⟩
  exact ((succeeds_concatNode hvalues hresult).ensures hrun).2.2

/-! ## Extents as a constant -/

theorem toInts?_ofList (elements : List Int32) :
    (Tensor.ofList .i32 elements).toInts? = some (elements.map Int32.toInt) := by
  exact congrArg some (congrFun (List.filterMap_eq_map (f := Int32.toInt)) elements)

theorem toInts?_of_splitInfo {extents : List Nat} {info : Tensor}
    (hinfo : splitInfo op extents = .ok info) :
    info.dtype = .i32 ∧ info.toInts? = some (extents.map Int.ofNat) := by
  obtain ⟨hfits, rfl⟩ := splitInfo_eq_ok_iff.mp hinfo
  refine ⟨rfl, ?_⟩
  rw [toInts?_ofList, List.map_map]
  refine congrArg some (List.map_congr_left fun extent hextent => ?_)
  have hmem := IntRange.mem_iff.mp (hfits extent hextent)
  simp only [IntRange.signed32] at hmem
  exact Int32.toInt_ofInt_of_le (by omega) (by omega)

/-! ## Runs -/

theorem run_concat_of_noAxis {axis : Int} (hflag : op.flagArg "add_axis" = .ok false)
    (haxis : concatAxis op = .ok axis)
    (hnames : List.Forall₂ (fun name value => work.env.get? name = some value) op.inputs values)
    (hvalues : List.Forall₂ (work.Carries bindings given) values tensors)
    (hfirst : tensors.head? = some first) :
    (concat op).run.run work = (canonicalAxis op "axis" axis first.shape.rank >>= fun place =>
      (build op fun graph => graph.concat op.label values place) >>=
        bindBoth op (splitInfo op (tensors.map (InPlace.extentAt place)))).run.run work := by
  obtain ⟨others, rfl⟩ := List.head?_eq_some_iff.mp hfirst
  have hinputs : op.inputs ≠ [] := inputs_ne_nil hnames hvalues (List.cons_ne_nil _ _)
  rw [concat, run_bind_of_run (run_ofExcept hflag), run_bind_of_run (run_ofExcept haxis),
    run_bind_of_run (run_allInputs hinputs hnames), run_bind_of_run (run_dimsOf_all hvalues),
    List.map_cons]
  have hextents (place : Nat) : (first.shape.dims :: others.map fun tensor => tensor.shape.dims).map
      (fun dims => dims.getD place 0) = (first :: others).map (InPlace.extentAt place) := by
    rw [List.map_cons, List.map_map]
    rfl
  simp only [Bool.false_eq_true, if_false, pure_bind, hextents]
  rfl

theorem bindsJoined_of_run {axis : Int} (hflag : op.flagArg "add_axis" = .ok false)
    (haxis : concatAxis op = .ok axis)
    (hnames : List.Forall₂ (fun name value => work.env.get? name = some value) op.inputs values)
    (hvalues : List.Forall₂ (work.Carries bindings given) values tensors)
    (hfirst : tensors.head? = some first) (hrun : (concat op).run.run work = (.ok (), last)) :
    last.BindsJoined op bindings given tensors (axisPlace axis first.shape.rank) := by
  rw [run_concat_of_noAxis hflag haxis hnames hvalues hfirst] at hrun
  obtain ⟨place, next, hplace, hrest⟩ := run_bind_eq_ok_iff.mp hrun
  obtain ⟨-, rfl, -, rfl⟩ := place_of_run_canonicalAxis hplace
  obtain ⟨value, joined, hbuild, hbind⟩ := run_bind_eq_ok_iff.mp hrest
  obtain ⟨result, hresult, hcarries⟩ := exists_joined_of_run hvalues hbuild
  obtain ⟨hgrows, ⟨name, hname, hvalue⟩, hsecond⟩ := bound_of_run_bindBoth hbind
  refine ⟨⟨name, value, result, hname, hvalue, hcarries.mono hgrows, hresult⟩, ?_⟩
  intro second hdeclared
  obtain ⟨info, constant, hinfo, hconstant, hisConstant⟩ := hsecond second hdeclared
  obtain ⟨hdtype, helements⟩ := toInts?_of_splitInfo hinfo
  rw [List.map_map] at helements
  exact ⟨constant, info, hconstant, hisConstant, hdtype, helements⟩

theorem exists_run_concat {axis : Int} {result : Tensor}
    (hflag : op.flagArg "add_axis" = .ok false) (haxis : concatAxis op = .ok axis)
    (hnames : List.Forall₂ (fun name value => work.env.get? name = some value) op.inputs values)
    (hvalues : List.Forall₂ (work.Carries bindings given) values tensors)
    (hfirst : tensors.head? = some first) (hlow : -first.shape.rank ≤ axis)
    (hhigh : axis < first.shape.rank)
    (hresult : Kernel.concat tensors (axisPlace axis first.shape.rank) result = .ok result)
    (hfits : ∀ tensor ∈ tensors,
      (InPlace.extentAt (axisPlace axis first.shape.rank) tensor : Int) ∈ IntRange.signed32)
    (hfree : work.FreeOutputs op) :
    ∃ last, (concat op).run.run work = (.ok (), last) := by
  rw [run_concat_of_noAxis hflag haxis hnames hvalues hfirst,
    run_bind_of_run (run_canonicalAxis hlow hhigh)]
  have hbuilds := @succeeds_concatNode work bindings given op op.label values _ tensors _ _ hvalues
    hresult
  obtain ⟨value, joined, hbuild⟩ := hbuilds.succeeds trivial
  have hcomputes := (hbuilds.ensures hbuild).2.1
  obtain ⟨last, hbind⟩ := exists_run_bindBoth (hfree.mono hcomputes)
    (fun _ => ⟨_, splitInfo_eq_ok_iff.mpr ⟨List.forall_mem_map.mpr hfits, rfl⟩⟩) value
  exact ⟨last, run_bind_eq_ok_iff.mpr ⟨value, joined, hbuild, hbind⟩⟩

/-- Slices at the prefix sums of the extents take joined tensors apart, consecutive slices of a
tensor are joined to it, and a plain concatenation lists the extents that say where to cut.  In
words the kernels do the same to joined tensors whose extents and count are words. -/
theorem slices_undo_concat (bits : Nat) :
    (∀ (inputs : List Tensor) (axis : Nat) (output result : Tensor),
      Kernel.concat inputs axis output = .ok result →
      InPlace.concat inputs axis output.storage = .ok () result.storage ∧
      ∀ (index : Nat) (input : Tensor), inputs[index]? = some input →
        (∀ coords place, inBounds result.shape.dims coords → coords[axis]? = some place →
          startAt axis inputs index ≤ place →
          place < startAt axis inputs index + InPlace.extentAt axis input →
          ∃ x, result.at? result.dtype coords = some x ∧
            input.at? result.dtype (coords.set axis (place - startAt axis inputs index)) =
              some x) ∧
        ∀ window : Tensor, window.type = input.type →
          InPlace.slice result ((origin result.shape.dims).set axis (startAt axis inputs index))
            window.storage = .ok () input.storage ∧
          (result.shape.FitsWords bits →
            Kernel.concatInWords bits inputs axis output = .ok result ∧
            Kernel.sliceInWords bits result
              ((origin result.shape.dims).set axis (startAt axis inputs index)) window =
                .ok input)) ∧
    (∀ (tensor output : Tensor) (axis : Nat) (extents : List Nat), extents ≠ [] →
      tensor.shape.dims[axis]? = some (total extents) → output.type = tensor.type →
      ∃ pieces, slicesAlong tensor axis 0 extents = .ok pieces ∧
        InPlace.concat pieces axis output.storage = .ok () tensor.storage ∧
        (tensor.shape.FitsWords bits →
          Kernel.concatInWords bits pieces axis output = .ok tensor)) ∧
    ∀ {work : Workspace} {op : Operator} {axis : Int} {bindings : Bindings} {given : Prop}
      {values : List Handle} {tensors : List Tensor} {first : Tensor},
      OperatorKind.parse? op.kind = some .concat → op.flagArg "add_axis" = .ok false →
      concatAxis op = .ok axis →
      List.Forall₂ (fun name value => work.env.get? name = some value) op.inputs values →
      List.Forall₂ (work.Carries bindings given) values tensors → tensors.head? = some first →
      let place := axisPlace axis first.shape.rank
      (∀ last, (operator op).run.run work = (.ok (), last) →
        last.BindsJoined op bindings given tensors place) ∧
      ∀ result, -first.shape.rank ≤ axis → axis < first.shape.rank →
        Kernel.concat tensors place result = .ok result →
        (∀ tensor ∈ tensors, (InPlace.extentAt place tensor : Int) ∈ IntRange.signed32) →
        work.FreeOutputs op → ∃ last, (operator op).run.run work = (.ok (), last) := by
  refine ⟨?_, ?_, ?_⟩
  · intro inputs axis output result hconcat
    constructor
    · rw [InPlace.concat_realizes, hconcat]
      rfl
    · intro index input hinput
      obtain ⟨hcells, hslice⟩ := Kernel.slice_of_concat hconcat hinput
      refine ⟨hcells, fun window hwindow => ⟨?_, fun hwords => ?_⟩⟩
      · rw [InPlace.slice_realizes, hslice window hwindow]
        rfl
      · exact ⟨Kernel.concatInWords_eq_ok hconcat hwords,
          Kernel.sliceInWords_eq_ok (hslice window hwindow) hwords⟩
  · intro tensor output axis extents hne hextents htype
    obtain ⟨pieces, hpieces, hconcat⟩ := Kernel.concat_slicesAlong htype hne hextents
    refine ⟨pieces, hpieces, ?_, fun hwords => Kernel.concatInWords_eq_ok hconcat hwords⟩
    rw [InPlace.concat_realizes, hconcat]
    rfl
  · intro work op axis bindings given values tensors first hkind hflag haxis hnames hvalues hfirst
    rw [operator_eq hkind]
    constructor
    · intro last hrun
      exact bindsJoined_of_run hflag haxis hnames hvalues hfirst hrun
    · intro result hlow hhigh hresult hfits hfree
      exact exists_run_concat hflag haxis hnames hvalues hfirst hlow hhigh hresult hfits hfree

/-- A column and a matrix, joined to a wider matrix. -/
def rowJoin : Operator :=
  ⟨"Concat", ["a", "b"], ["y", "info"], none, ⟨[("axis", .int (-1))], List.pairwise_singleton _ _⟩⟩

def rowJoinOperands : List Tensor :=
  [⟨.i32, ⟨[2, 1]⟩, #[1, 4], rfl⟩, ⟨.i32, ⟨[2, 2]⟩, #[2, 3, 5, 6], rfl⟩]

def rowJoinResult : Tensor := ⟨.i32, ⟨[2, 3]⟩, #[1, 2, 3, 4, 5, 6], rfl⟩

def rowJoinWorkspace : Workspace where
  graph := ⟨"rows", #[
    ⟨"a", .variable .placeholder ⟨.i32, ⟨[2, 1]⟩⟩, [⟨.i32, ⟨[2, 1]⟩⟩]⟩,
    ⟨"b", .variable .placeholder ⟨.i32, ⟨[2, 2]⟩⟩, [⟨.i32, ⟨[2, 2]⟩⟩]⟩]⟩
  env := ⟨[("a", .first 0), ("b", .first 1)], (by decide : ["a", "b"].Nodup)⟩

theorem rowJoin_slices :
    InPlace.slice rowJoinResult [0, 1] (Tensor.zeros .i32 ⟨[2, 2]⟩).storage =
      .ok () (Tensor.mk .i32 ⟨[2, 2]⟩ #[2, 3, 5, 6] rfl).storage ∧
    (∃ x, rowJoinResult.at? .i32 [1, 2] = some x ∧
      (Tensor.mk .i32 ⟨[2, 2]⟩ #[2, 3, 5, 6] rfl).at? .i32 [1, 1] = some x) ∧
    Kernel.sliceInWords 3 rowJoinResult [0, 1] (Tensor.zeros .i32 ⟨[2, 2]⟩) =
      .ok ⟨.i32, ⟨[2, 2]⟩, #[2, 3, 5, 6], rfl⟩ ∧
    (∃ pieces, slicesAlong rowJoinResult 1 0 [0, 3] = .ok pieces ∧
      InPlace.concat pieces 1 rowJoinResult.storage = .ok () rowJoinResult.storage) ∧
    ∃ last constant info, (operator rowJoin).run.run rowJoinWorkspace = (.ok (), last) ∧
      last.env.get? "info" = some constant ∧ last.IsConstant constant info ∧
      info.toInts? = some [1, 2] := by
  obtain ⟨hapart, htogether, hlowering⟩ := slices_undo_concat 3
  have hconcat : Kernel.concat rowJoinOperands 1 rowJoinResult = .ok rowJoinResult := rfl
  obtain ⟨-, hinputs⟩ := hapart _ _ _ _ hconcat
  obtain ⟨hcells, hslice⟩ := hinputs 1 _ rfl
  obtain ⟨hwindow, hwords⟩ := hslice (Tensor.zeros .i32 ⟨[2, 2]⟩) rfl
  refine ⟨hwindow, hcells [1, 2] 2 rfl rfl (by decide) (by decide), (hwords (by decide)).2, ?_, ?_⟩
  · obtain ⟨pieces, hpieces, hjoined, -⟩ :=
      htogether rowJoinResult rowJoinResult 1 [0, 3] nofun rfl rfl
    exact ⟨pieces, hpieces, hjoined⟩
  · have hvalues : List.Forall₂ (rowJoinWorkspace.Carries
        (.ofList [("a", rowJoinOperands[0]), ("b", rowJoinOperands[1])]) True)
        [.first 0, .first 1] rowJoinOperands :=
      .cons ⟨rfl, fun _ => (Graph.evaluate_eq _ _ rfl).trans rfl⟩
        (.cons ⟨rfl, fun _ => (Graph.evaluate_eq _ _ rfl).trans rfl⟩ .nil)
    obtain ⟨hbinds, hsucceeds⟩ := @hlowering _ rowJoin _ _ _ _ _ _ rfl rfl rfl
      (.cons rfl (.cons rfl .nil)) hvalues rfl
    have hfree : rowJoinWorkspace.FreeOutputs rowJoin :=
      Workspace.freeOutputs_of_names rfl rfl rfl (by decide) (by decide)
    obtain ⟨last, hrun⟩ := hsucceeds rowJoinResult (by decide) (by decide) hconcat
      (by decide) hfree
    obtain ⟨constant, info, hconstant, hisConstant, -, hinfo⟩ :=
      (hbinds last hrun).extents "info" rfl
    exact ⟨last, constant, info, hrun, hconstant, hisConstant, hinfo⟩

/-- A tensor with many rows of no elements. -/
def emptyRows (rows : Nat) : Tensor := Tensor.zeros .f32 ⟨[rows, 0]⟩

/-- In words of 64 bits three such tensors are joined to one of fewer rows than each has, from
which no slice gives the first one back. -/
theorem emptyRows_loses_operands :
    Kernel.concatShape 0 [⟨[twoPow 63 - 1, 0]⟩, ⟨[twoPow 63 - 1, 0]⟩, ⟨[twoPow 63 - 1, 0]⟩] =
        .ok ⟨[3 * (twoPow 63 - 1), 0]⟩ ∧
      Kernel.concatInWords 64
        [emptyRows (twoPow 63 - 1), emptyRows (twoPow 63 - 1), emptyRows (twoPow 63 - 1)] 0
        (emptyRows (twoPow 63 - 3)) = .ok (emptyRows (twoPow 63 - 3)) ∧
      ∃ reason, Kernel.sliceInWords 64 (emptyRows (twoPow 63 - 3)) [0, 0]
        (emptyRows (twoPow 63 - 1)) = .error (.refused reason) :=
  ⟨rfl, rfl, _, rfl⟩

end Lowering
end NetImport
