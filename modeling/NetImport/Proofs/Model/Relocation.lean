import NetImport.Proofs.Lowering.MirroredHandlers
import NetImport.Proofs.Model.Layout

/-!
# Imports that go elsewhere

What an import appends does not depend on what it finds in the graph, except for the names that
its variables need.  So it can be done on an empty graph and placed behind another one, and it
fails on one of them when it fails on the other.
-/

namespace NetImport

def LoadedModel.shift (model : LoadedModel) (count : Nat) : LoadedModel :=
  ⟨model.outputs.map fun entry => (entry.1, entry.2.shift count)⟩

@[simp] theorem LoadedModel.shift_zero (model : LoadedModel) : model.shift 0 = model := by
  simp [shift]

/-- The names of the variables that an import adds: those of the caller, of the weights, of
the outputs and of the auxiliary constants. -/
def importNames (predict init : NetDefinition) (names : List String) : List String :=
  names ++ (match WeightTable.ofNet init with
    | .ok weights => weights.entries.map Prod.fst
    | .error _ => []) ++ predict.externalOutputs ++
      (Operator.auxiliaries predict.operators).map fun (op, name) => Lowering.nodeName op name

namespace Mirroring

variable {mirror : Mirroring} {live : List Handle}

/-! ## The steps of an import -/

/-- An output with its variable. -/
def savedOutput : Cargo (String × Handle) :=
  ⟨fun count entry => (entry.1, entry.2.shift count), fun _ => []⟩

def loadedModel : Cargo LoadedModel := ⟨fun count model => model.shift count, fun _ => []⟩

theorem sameData_addVariable {name : String}
    {add add' : Graph → Except GraphError (Graph × Handle)} {kind : NodeKind}
    (hadd : ∀ graph, add graph = graph.append name kind)
    (hadd' : ∀ graph, add' graph = graph.append name (kind.shift mirror.offset))
    (hkind : kind.StandsAlone) (hoperands : kind.operands = [])
    (hfree : mirror.before.findVariable? name = none) :
    mirror.SameData live (Lowering.addVariable name add) (Lowering.addVariable name add') := by
  have hlive : kind.operands ⊆ live := by
    rw [hoperands]
    exact List.nil_subset live
  apply (sameValue_append hadd hadd' rfl rfl hkind hlive fun _ => hfree).bind
  intro value
  exact sameData_bindName name (List.mem_cons_self ..)

theorem sameData_addInput (weights : WeightTable) {entry : String × TensorType}
    (hfree : mirror.before.findVariable? entry.1 = none) :
    mirror.SameData live (Lowering.addInput weights entry) (Lowering.addInput weights entry) := by
  have hadd : mirror.SameData live
      (Lowering.addVariable entry.1 fun graph => graph.placeholder entry.1 entry.2)
      (Lowering.addVariable entry.1 fun graph => graph.placeholder entry.1 entry.2) :=
    sameData_addVariable (fun _ => rfl) (fun _ => rfl) ⟨nofun, nofun⟩ rfl hfree
  exact .ite (inStep_throw_bind rfl) hadd

theorem sameData_addWeight {entry : String × Tensor}
    (hfree : mirror.before.findVariable? entry.1 = none) :
    mirror.SameData live (Lowering.addWeight entry) (Lowering.addWeight entry) :=
  sameData_addVariable (fun _ => rfl) (fun _ => rfl) ⟨nofun, nofun⟩ rfl hfree

theorem run_addOutput (name : String) (work : Workspace) :
    (Lowering.addOutput name).run.run work =
      match work.env.get? name with
      | none => (.error (.unboundInput Lowering.importLabel name), work)
      | some value =>
          (match (work.graph.saveInPlace name value).1 with
            | .ok output => .ok (name, output)
            | .error error => .error (.ofVariableError Lowering.importLabel error),
            { work with graph := (work.graph.saveInPlace name value).2 }) := by
  rw [Lowering.addOutput, Lowering.run_bind, Lowering.resolve, Lowering.run_bind,
    Lowering.run_get]
  dsimp only
  rw [Environment.resolve]
  cases work.env.get? name with
  | none => rfl
  | some value =>
      dsimp only [Lowering.ofExcept]
      rw [Lowering.run_pure]
      dsimp only
      rw [Lowering.run_bind, Lowering.run_get]
      dsimp only
      rcases work.graph.saveInPlace name value with ⟨error | output, next⟩ <;> rfl

theorem inStep_addOutput {name : String} (hfree : mirror.before.findVariable? name = none) :
    mirror.InStep live savedOutput (Lowering.addOutput name) (Lowering.addOutput name) := by
  refine ⟨fun {work work'} hwork _ => ?_⟩
  rw [run_addOutput, run_addOutput, hwork.get?_eq]
  cases hget : work.env.get? name with
  | none => exact .error (mirror.alike_refl _) work work'
  | some value =>
      have hentry : (name, value) ∈ work.env.entries := Environment.get?_eq_some_iff.mp hget
      obtain ⟨type, htype⟩ := hwork.resolves _ hentry
      have hboth := Graph.saveInPlace_followedBy htype hfree
      have hkeeps {found : Handle} (hfound : work.graph.Resolves found) :
          (work.graph.saveInPlace name value).2.Resolves found := by
        rcases work.graph.saveInPlace_cases name value with
          ⟨error, hrefused⟩ | ⟨type, withVariable, output, next, last, -, hvariable, hsave, heq⟩
        · rwa [hrefused]
        · rw [heq]
          exact (hfound.append hvariable).append hsave
      dsimp only [Option.map_some]
      rw [hwork.graph_eq, offset, hboth]
      generalize work.graph.saveInPlace name value = saved at hkeeps ⊢
      rcases saved with ⟨error | output, next⟩
      · exact .error (mirror.alike_refl _) _ _
      · refine .ok ⟨rfl, hwork.entries_eq, fun entry hentry => ?_⟩ hkeeps (List.forall_mem_nil _)
        exact hkeeps (hwork.resolves entry hentry)

theorem inStep_model {predict predict' init init' : NetDefinition}
    (hpredict : List.Forall₂ (Operator.ReadsAlike mirror.alike) predict.operators
      predict'.operators)
    (houtputs : predict'.externalOutputs = predict.externalOutputs)
    (hinit : List.Forall₂ (Operator.ReadsAlike mirror.alike) init.operators init'.operators)
    {names : List String} (types : List TensorType)
    (hfree : ∀ name ∈ importNames predict init names, mirror.before.findVariable? name = none) :
    mirror.InStep live loadedModel (Lowering.model predict init (names.zip types))
      (Lowering.model predict' init' (names.zip types)) := by
  simp only [importNames, List.forall_mem_append, List.forall_mem_map] at hfree
  obtain ⟨⟨⟨hnames, hweights⟩, hexternal⟩, hauxiliary⟩ := hfree
  have hfilled := WeightTable.ofNet_alike hinit
  unfold Lowering.model
  rw [houtputs]
  generalize WeightTable.ofNet init = filled at hfilled hweights ⊢
  generalize WeightTable.ofNet init' = filled' at hfilled ⊢
  cases hfilled with
  | error halike => exact ⟨fun {work work'} _ _ => .error halike work work'⟩
  | ok weights =>
      apply inStep_pure_bind
      have hinputs : mirror.SameData live ((names.zip types).forM (Lowering.addInput weights))
          ((names.zip types).forM (Lowering.addInput weights)) := by
        apply SameData.forM
        apply List.forall₂_same.mpr
        intro entry hentry
        exact sameData_addInput weights (hnames entry.1 (List.of_mem_zip hentry).1)
      apply hinputs.bind
      intro _
      have hconstants : mirror.SameData live (weights.entries.forM Lowering.addWeight)
          (weights.entries.forM Lowering.addWeight) := by
        apply SameData.forM
        apply List.forall₂_same.mpr
        intro entry hentry
        exact sameData_addWeight (hweights entry.1 (List.mem_map_of_mem hentry))
      apply hconstants.bind
      intro _
      have hoperators : mirror.SameData live (predict.operators.forM Lowering.operator)
          (predict'.operators.forM Lowering.operator) := by
        have hfrees : ∀ op ∈ predict.operators, mirror.FreesAuxiliary op := by
          intro op hop name hname
          apply hauxiliary (op, name)
          exact List.mem_flatMap.mpr ⟨op, hop, by simp [hname]⟩
        apply SameData.forM
        apply (List.forall₂_and_left _ _).mpr ⟨hfrees, hpredict⟩ |>.imp
        exact fun op op' hboth => sameData_operator hboth.2 hboth.1
      apply hoperators.bind
      intro _
      have houtputs : mirror.InStep live savedOutput.list
          (predict.externalOutputs.mapM Lowering.addOutput)
          (predict.externalOutputs.mapM Lowering.addOutput) := by
        apply InStep.mapM
        apply List.forall₂_same.mpr
        intro name hname
        exact inStep_addOutput (hexternal name hname)
      apply houtputs.bind
      intro outputs
      exact inStep_pure rfl (List.nil_subset _)

end Mirroring

/-- Nets that read alike are imported alike, one of them behind other nodes. -/
theorem load_mirrored (mirror : Mirroring) {predict predict' init init' : NetDefinition}
    (hpredict : List.Forall₂ (Operator.ReadsAlike mirror.alike) predict.operators
      predict'.operators)
    (houtputs : predict'.externalOutputs = predict.externalOutputs)
    (hinit : List.Forall₂ (Operator.ReadsAlike mirror.alike) init.operators init'.operators)
    (names : List String) (types : List TensorType) (graph : Graph)
    (hfree : ∀ name ∈ importNames predict init names, mirror.before.findVariable? name = none) :
    match LoadedModel.load predict init names types graph with
    | (.ok loaded, next) =>
        LoadedModel.load predict' init' names types (mirror.before.followedBy graph) =
          (.ok (loaded.shift mirror.offset), mirror.before.followedBy next)
    | (.error error, _) => ∃ error', mirror.alike error error' ∧
        LoadedModel.load predict' init' names types (mirror.before.followedBy graph) =
          (.error error', mirror.before.followedBy graph) := by
  unfold LoadedModel.load
  by_cases hlength : names.length ≠ types.length
  · rw [if_pos hlength, if_pos hlength]
    exact ⟨_, mirror.alike_refl _, rfl⟩
  · rw [if_neg hlength, if_neg hlength]
    dsimp only
    have hstart : mirror.Related ⟨graph, .empty⟩ ⟨mirror.before.followedBy graph, .empty⟩ :=
      ⟨rfl, rfl, List.forall_mem_nil _⟩
    have houtcome := (Mirroring.inStep_model hpredict houtputs hinit types hfree).run_outcome
      hstart (List.forall_mem_nil _)
    have hbuilds := (Lowering.builds_model predict' init' (names.zip types)).run_related
      ⟨mirror.before.followedBy graph, .empty⟩
    generalize (Lowering.model predict init (names.zip types)).run.run _ = outcome at houtcome ⊢
    generalize (Lowering.model predict' init' (names.zip types)).run.run _ = outcome'
      at houtcome hbuilds ⊢
    cases houtcome with
    | ok hwork _ _ =>
        dsimp only
        rw [hwork.graph_eq]
        rfl
    | @error error error' halike work work' =>
        have hback : work'.graph.rollback (mirror.before.followedBy graph).checkpoint =
            mirror.before.followedBy graph :=
          Graph.Reaches.rollback_eq hbuilds
        exact ⟨error', halike, congrArg (Prod.mk _) hback⟩

/-- An import does to a graph that has none of its names what it does to an empty one.  The
new nodes are those of the import into an empty graph and refer to each other by positions
that are counted from the end of the old ones, and so do the outputs.  When one of the two
fails the other one fails with the same error. -/
theorem load_is_relocatable {predict init : NetDefinition} {names : List String} {graph : Graph}
    (hfree : ∀ name ∈ importNames predict init names, graph.findVariable? name = none)
    (types : List TensorType) (start : String) :
    match LoadedModel.load predict init names types (.empty start) with
    | (.ok loaded, fresh) =>
        LoadedModel.load predict init names types graph =
          (.ok (loaded.shift graph.nodes.size), graph.followedBy fresh)
    | (.error error, _) =>
        LoadedModel.load predict init names types graph = (.error error, graph) := by
  have hmirrored := load_mirrored ⟨graph, Eq, fun _ => rfl⟩
    (List.forall₂_same.mpr fun op _ => Operator.ReadsAlike.refl op) rfl
    (List.forall₂_same.mpr fun op _ => Operator.ReadsAlike.refl op) names types (.empty start)
    hfree
  rw [Graph.followedBy_empty] at hmirrored
  rcases hload : LoadedModel.load predict init names types (.empty start) with
    ⟨error | loaded, fresh⟩ <;> rw [hload] at hmirrored
  · obtain ⟨error', heq, hfailed⟩ := hmirrored
    rw [heq]
    exact hfailed
  · exact hmirrored

theorem joiningNet_behind_passingGraph :
    (∀ name ∈ importNames joiningNet joiningWeights ["a"],
      passingGraph.findVariable? name = none) ∧
    ∃ loaded fresh,
      LoadedModel.load joiningNet joiningWeights ["a"] [⟨.f32, ⟨[3]⟩⟩] (.empty "joined") =
        (.ok loaded, fresh) ∧
      LoadedModel.load joiningNet joiningWeights ["a"] [⟨.f32, ⟨[3]⟩⟩] passingGraph =
        (.ok (loaded.shift 3), passingGraph.followedBy fresh) ∧
      loaded.outputs = [("b", .first 4), ("extents", .first 6)] := by
  have hfree : ∀ name ∈ importNames joiningNet joiningWeights ["a"],
      passingGraph.findVariable? name = none := by decide +kernel
  have hsucceeds : (match (LoadedModel.load joiningNet joiningWeights ["a"]
      [⟨.f32, ⟨[3]⟩⟩] (.empty "joined")).1 with
    | .ok loaded => decide (loaded.outputs = [("b", .first 4), ("extents", .first 6)])
    | .error _ => false) = true := by decide +kernel
  have hrelocated := load_is_relocatable hfree [⟨.f32, ⟨[3]⟩⟩] "joined"
  rcases hload : LoadedModel.load joiningNet joiningWeights ["a"] [⟨.f32, ⟨[3]⟩⟩]
    (.empty "joined") with ⟨error | loaded, fresh⟩ <;> rw [hload] at hsucceeds hrelocated
  · cases hsucceeds
  · exact ⟨hfree, loaded, fresh, rfl, hrelocated, of_decide_eq_true hsucceeds⟩

end NetImport
