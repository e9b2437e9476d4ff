import NetImport.Proofs.Lowering.Carried
import NetImport.Proofs.Lowering.RequestedExtents

/-!
# Reshapes

A reshape takes the extents that it asks for from an argument or from a weight.  It fails when
they are not resolved, and otherwise binds its output to the elements of its input, in the
order in which they were, with the resolved extents.
-/

namespace NetImport
namespace Lowering

/-- Where a reshape finds the extents that it asks for. -/
inductive RequestsExtents (work : Workspace) (op : Operator) (spec : List Int) : Prop
  | argument (hshape : op.intsArg? "shape" = .ok (some spec))
  | weight {name : String} {source : Handle} {tensor : Tensor}
      (hshape : op.intsArg? "shape" = .ok none) (hname : op.inputs[1]? = some name)
      (hsource : work.env.get? name = some source) (hconstant : work.IsConstant source tensor)
      (hdtype : tensor.dtype = .i32 ∨ tensor.dtype = .i64) (helements : tensor.toInts? = some spec)

variable {work last : Workspace} {bindings : Bindings} {given : Prop} {op : Operator}
  {name : String} {value : Handle} {tensor : Tensor} {spec : List Int} {dims : List Nat}

theorem run_constant? (hconstant : work.IsConstant value tensor) :
    (constant? value).run.run work = (.ok (some tensor), work) := by
  obtain ⟨node, hnode, hkind⟩ := hconstant
  have hself : node.constant? = some tensor := by simp [Node.constant?, Node.role?, hkind]
  rw [constant?, run_bind, run_get]
  dsimp only
  rw [hnode, Option.bind_some, hself]
  rfl

theorem run_requestedExtents (hrequests : RequestsExtents work op spec) :
    (requestedExtents op).run.run work = (.ok spec, work) := by
  cases hrequests with
  | argument hshape =>
      rw [requestedExtents, run_bind_of_run (run_ofExcept hshape)]
      rfl
  | weight hshape hname hsource hconstant hdtype helements =>
      rw [requestedExtents, run_bind_of_run (run_ofExcept hshape)]
      dsimp only
      rw [run_bind_of_run (run_input_of_bound hname hsource),
        run_bind_of_run (run_constant? hconstant)]
      dsimp only
      rw [if_pos hdtype, helements]
      rfl

theorem run_reshape (hname : op.inputs[0]? = some name) (hvalue : work.env.get? name = some value)
    (hcarries : work.Carries bindings given value tensor)
    (hrequests : RequestsExtents work op spec) :
    (reshape op).run.run work =
      (ofExcept (resolveExtents op tensor.shape.dims spec) >>= fun dims =>
        (build op fun graph => graph.reshape op.label value dims) >>=
          bindBoth op (.ok (.ofList .i64 (tensor.shape.dims.map Int64.ofNat)))).run.run work := by
  rw [reshape, run_bind_of_run (run_input_of_bound hname hvalue),
    run_bind_of_run (run_dimsOf hcarries.type_eq), run_bind_of_run (run_requestedExtents hrequests)]
  rfl

theorem run_reshape_refused {error : LoadError} (hname : op.inputs[0]? = some name)
    (hvalue : work.env.get? name = some value)
    (hcarries : work.Carries bindings given value tensor)
    (hrequests : RequestsExtents work op spec)
    (herror : resolveExtents op tensor.shape.dims spec = .error error) :
    (reshape op).run.run work = (.error error, work) := by
  rw [run_reshape hname hvalue hcarries hrequests, herror]
  rfl

theorem succeeds_reshapedNode (hcarries : work.Carries bindings given value tensor)
    (hcount : product dims = tensor.shape.count) :
    Succeeds (build op fun graph => graph.reshape op.label value dims) work
      fun reshaped last => last.Carries bindings given reshaped
        ⟨tensor.dtype, ⟨dims⟩, tensor.data, tensor.size_eq.trans hcount.symm⟩ :=
  succeeds_reshapeNode hcarries
    (@Kernel.reshape_eq_ok tensor (Tensor.zeros tensor.dtype ⟨dims⟩) rfl hcount)

theorem run_reshape_resolved (hname : op.inputs[0]? = some name)
    (hvalue : work.env.get? name = some value)
    (hcarries : work.Carries bindings given value tensor)
    (hrequests : RequestsExtents work op spec)
    (hresolved : resolveExtents op tensor.shape.dims spec = .ok dims) :
    (∃ graph reshaped, work.graph.reshape op.label value dims = .ok (graph, reshaped)) ∧
      (∀ last, (reshape op).run.run work = (.ok (), last) →
        ∃ name reshaped hsize, op.outputs[0]? = some name ∧ last.env.get? name = some reshaped ∧
          last.Carries bindings given reshaped ⟨tensor.dtype, ⟨dims⟩, tensor.data, hsize⟩) ∧
      (work.FreeOutputs op → ∃ last, (reshape op).run.run work = (.ok (), last)) := by
  have hcount : product dims = tensor.shape.count := product_eq_of_resolveExtents hresolved
  have hbuilds := @succeeds_reshapedNode work bindings given op value tensor dims hcarries hcount
  obtain ⟨reshaped, next, hbuild⟩ := hbuilds.succeeds trivial
  obtain ⟨-, hcomputes, hreshaped⟩ := hbuilds.ensures hbuild
  have hrun : (reshape op).run.run work =
      (bindBoth op (.ok (.ofList .i64 (tensor.shape.dims.map Int64.ofNat))) reshaped).run.run
        next := by
    rw [run_reshape hname hvalue hcarries hrequests, run_bind_of_run (run_ofExcept hresolved),
      run_bind, hbuild]
  rw [hrun]
  refine ⟨?_, ?_, ?_⟩
  · obtain ⟨graph, hnode, -⟩ := run_append_eq_ok_iff.mp hbuild
    exact ⟨graph, reshaped, hnode⟩
  · intro last hbind
    obtain ⟨hgrows, ⟨output, houtput, hbound⟩, -⟩ := bound_of_run_bindBoth hbind
    exact ⟨output, reshaped, _, houtput, hbound, hreshaped.mono hgrows⟩
  · intro hfree
    exact exists_run_bindBoth (hfree.mono hcomputes) (fun _ => ⟨_, rfl⟩) reshaped

/-- Requested extents are resolved when they are determined by what is asked for and by the
element count.  A requested shape that leaves none or many of them is a mismatch, and one that
cannot be read is malformed; the reshape fails in the same way.  Otherwise its output has the
elements of the input, in the same order, whether the request was an argument or a weight. -/
theorem reshape_resolves_extents :
    (∀ (op : Operator) (input : List Nat) (spec : List Int),
      (Readable input.length spec →
        (∀ dims, resolveExtents op input spec = .ok dims ↔
          Fills input spec dims ∧ ∀ other, Fills input spec other → other = dims) ∧
        ((¬∃! dims, Fills input spec dims) →
          ∃ detail, resolveExtents op input spec = .error (.shapeMismatch op.label detail))) ∧
      (¬Readable input.length spec →
        ∃ detail, resolveExtents op input spec =
          .error (.malformedArgument op.label "shape" detail))) ∧
    ∀ {op : Operator} {work : Workspace} {bindings : Bindings} {given : Prop} {name : String}
      {value : Handle} {tensor : Tensor} {spec : List Int},
      OperatorKind.parse? op.kind = some .reshape → op.inputs[0]? = some name →
      work.env.get? name = some value → work.Carries bindings given value tensor →
      RequestsExtents work op spec →
      (∀ error, resolveExtents op tensor.shape.dims spec = .error error →
        (operator op).run.run work = (.error error, work)) ∧
      ∀ dims, resolveExtents op tensor.shape.dims spec = .ok dims →
        (∃ graph reshaped, work.graph.reshape op.label value dims = .ok (graph, reshaped)) ∧
        (∀ last, (operator op).run.run work = (.ok (), last) →
          ∃ name reshaped hsize, op.outputs[0]? = some name ∧
            last.env.get? name = some reshaped ∧
            last.Carries bindings given reshaped ⟨tensor.dtype, ⟨dims⟩, tensor.data, hsize⟩) ∧
        (work.FreeOutputs op → ∃ last, (operator op).run.run work = (.ok (), last)) := by
  constructor
  · intro op input spec
    constructor
    · intro hreadable
      exact ⟨fun dims => resolveExtents_eq_ok_iff hreadable,
        resolveExtents_of_undetermined hreadable⟩
    · exact resolveExtents_of_not_readable
  · intro op work bindings given name value tensor spec hkind hname hvalue hcarries hrequests
    rw [operator_eq hkind]
    constructor
    · intro error herror
      exact run_reshape_refused hname hvalue hcarries hrequests herror
    · intro dims hresolved
      exact run_reshape_resolved hname hvalue hcarries hrequests hresolved

/-- A reshape to three rows and as many columns as are left, as a weight asks for. -/
def rowsReshape : Operator := ⟨"Reshape", ["x", "shape"], ["y", "old"], none, .empty⟩

def rowsRequest : Tensor := .ofList .i64 [3, -1]

/-- The workspace with a matrix of two rows and with the request. -/
def rowsReshapeWorkspace : Workspace where
  graph := ⟨"rows", #[
    ⟨"x", .variable .placeholder ⟨.i32, ⟨[2, 3]⟩⟩, [⟨.i32, ⟨[2, 3]⟩⟩]⟩,
    ⟨"shape", .variable (.constant rowsRequest) rowsRequest.type, [rowsRequest.type]⟩]⟩
  env := ⟨[("shape", .first 1), ("x", .first 0)], by decide⟩

theorem rowsReshape_resolves :
    (∀ other, Fills [2, 3] [3, -1] other → other = [3, 2]) ∧
    (∃ detail, resolveExtents rowsReshape [0, 3] [0, -1] = .error (.shapeMismatch "y" detail)) ∧
    (∃ detail, resolveExtents rowsReshape [2, 3] [-1, -1] =
      .error (.malformedArgument "y" "shape" detail)) ∧
    ∃ last value, (operator rowsReshape).run.run rowsReshapeWorkspace = (.ok (), last) ∧
      last.env.get? "y" = some value ∧
      last.Carries (.ofList [("x", ⟨.i32, ⟨[2, 3]⟩, #[1, 2, 3, 4, 5, 6], rfl⟩)]) True value
        ⟨.i32, ⟨[3, 2]⟩, #[1, 2, 3, 4, 5, 6], rfl⟩ := by
  obtain ⟨hresolves, hlowering⟩ := reshape_resolves_extents
  have hreadable {first : Int} (hfirst : first = 3 ∨ first = 0) : Readable 2 [first, -1] := by
    refine ⟨?_, ?_, fun position hzero => (List.getElem?_eq_some_iff.mp hzero).1⟩
    all_goals rcases hfirst with rfl | rfl <;> decide
  refine ⟨?_, ?_, ?_, ?_⟩
  · exact (((hresolves rowsReshape [2, 3] [3, -1]).1 (hreadable (.inl rfl))).1 [3, 2]).mp rfl |>.2
  · apply ((hresolves rowsReshape [0, 3] [0, -1]).1 (hreadable (.inr rfl))).2
    have hfills (extent : Nat) : Fills [0, 3] [0, -1] [0, extent] :=
      ⟨.cons ⟨fun _ => rfl, nofun⟩ (.cons ⟨nofun, nofun⟩ .nil), Nat.zero_mul _⟩
    intro honly
    cases honly.unique (hfills 0) (hfills 1)
  · exact (hresolves rowsReshape [2, 3] [-1, -1]).2 fun h => absurd h.inferred (by decide)
  · have hrequests : RequestsExtents rowsReshapeWorkspace rowsReshape [3, -1] :=
      .weight rfl rfl rfl ⟨_, rfl, rfl⟩ (.inr rfl) rfl
    obtain ⟨-, hresolved⟩ := @hlowering rowsReshape rowsReshapeWorkspace
      (.ofList [("x", ⟨.i32, ⟨[2, 3]⟩, #[1, 2, 3, 4, 5, 6], rfl⟩)]) True "x" (.first 0)
      ⟨.i32, ⟨[2, 3]⟩, #[1, 2, 3, 4, 5, 6], rfl⟩ [3, -1] rfl rfl rfl
      ⟨rfl, fun _ => (Graph.evaluate_eq _ _ rfl).trans rfl⟩ hrequests
    obtain ⟨-, hbinds, hsucceeds⟩ := hresolved [3, 2] rfl
    obtain ⟨last, hrun⟩ :=
      hsucceeds (Workspace.freeOutputs_of_names rfl rfl rfl (by decide) (by decide))
    obtain ⟨name, value, _, hname, hvalue, hcarries⟩ := hbinds last hrun
    obtain rfl : "y" = name := Option.some.inj hname
    exact ⟨last, value, hrun, hvalue, hcarries⟩

end Lowering
end NetImport
