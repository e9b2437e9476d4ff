import NetImport.Model.Load
import NetImport.Proofs.Execution.TypeSoundness
import NetImport.Proofs.Lowering.Handlers

/-!
# Imported models run

An import appends a placeholder for each input of the caller and an output variable for
each output of its net, in their orders, and whatever it appends besides is neither.  So
the tensors of the caller supply all the placeholders, and a run returns the outputs of
the net, each with the type of its variable.
-/

namespace NetImport

/-- A graph with given inputs and output variables, in order of creation. -/
structure Graph.Imported (inputs : List (String × TensorType))
    (outputs : List (String × Handle)) (graph : Graph) : Prop where
  built : graph.Built
  inputs : graph.placeholderNodes.map (fun (_, node) => (node.name, node.kind)) =
    inputs.map fun input => (input.1, .variable .placeholder input.2)
  outputs : graph.outputNodes.map (fun (position, node) => (node.name, Handle.first position)) =
    outputs

namespace Graph.Imported

variable {inputs : List (String × TensorType)} {outputs : List (String × Handle)}
  {graph next : Graph}

theorem empty (name : String) : Imported [] [] (Graph.empty name) where
  built := built_empty name
  inputs := rfl
  outputs := rfl

theorem append_inner (himported : Imported inputs outputs graph) {name : String}
    {kind : NodeKind} {value : Handle} (hkind : kind.Inner)
    (happend : graph.append name kind = .ok (next, value)) :
    Imported inputs outputs next := by
  obtain ⟨hplaceholders, houtputs⟩ := variables_of_append_alone happend hkind.standsAlone
    fun _ htype => by rw [htype] at hkind; exact hkind
  constructor
  · exact (Step.alone hkind.standsAlone happend).built himported.built
  · rw [hplaceholders, himported.inputs]
  · rw [houtputs, himported.outputs]

theorem placeholder (himported : Imported inputs outputs graph) {name : String}
    {type : TensorType} {value : Handle}
    (hplaceholder : graph.placeholder name type = .ok (next, value)) :
    Imported (inputs ++ [(name, type)]) outputs next := by
  obtain ⟨⟨results, hplaceholders⟩, houtputs⟩ := variables_of_placeholder hplaceholder
  have halone : (NodeKind.variable .placeholder type).StandsAlone := ⟨nofun, nofun⟩
  constructor
  · exact (Step.alone halone hplaceholder).built himported.built
  · rw [hplaceholders, List.map_append, List.map_append, himported.inputs]
    rfl
  · rw [houtputs, himported.outputs]

theorem saveInPlace (himported : Imported inputs outputs graph) {name : String}
    {input output : Handle} (hsave : graph.saveInPlace name input = (.ok output, next)) :
    Imported inputs (outputs ++ [(name, output)]) next := by
  obtain ⟨hplaceholders, houtput, type, results, houtputs⟩ := variables_of_saveInPlace hsave
  constructor
  · rcases graph.saveInPlace_cases name input with
      ⟨error, hrefused⟩ | ⟨type, withVariable, variable', last, value, htype, hvariable,
        hsaved, heq⟩
    · rw [hrefused] at hsave
      cases hsave
    · rw [heq] at hsave
      obtain rfl := (Prod.mk.inj hsave).2
      exact (Step.saved htype hvariable hsaved).built himported.built
  · rw [hplaceholders, himported.inputs]
  · rw [houtputs, List.map_append, himported.outputs, houtput]
    rfl

theorem of_grows {start work : Workspace} (hgrows : start.Grows work)
    (himported : Imported inputs outputs start.graph) :
    Imported inputs outputs work.graph := by
  induction hgrows with
  | refl => exact himported
  | append _ hkind happend ih => exact ih.append_inner hkind happend
  | bind _ _ ih => exact ih

end Graph.Imported

namespace Lowering

variable {α β : Type} {work last : Workspace} {inputs : List (String × TensorType)}
  {outputs : List (String × Handle)}

/-! ## Steps of an import -/

theorem grows_addWeight (entry : String × Tensor) :
    Leads Workspace.Grows (addWeight entry) :=
  leads_bind (grows_append ⟨_, _, fun _ => rfl, trivial⟩) fun _ => grows_bindName _ _

theorem add_of_run_addVariable {name : String}
    {add : Graph → Except GraphError (Graph × Handle)} {result : Unit}
    (hrun : (addVariable name add).run.run work = (.ok result, last)) :
    ∃ value, add work.graph = .ok (last.graph, value) := by
  obtain ⟨value, next, happend, hbind⟩ := run_bind_eq_ok_iff.mp hrun
  obtain ⟨graph, hadd, rfl⟩ := run_append_eq_ok_iff.mp happend
  obtain ⟨env, -, rfl⟩ := run_bindName_eq_ok_iff.mp hbind
  exact ⟨value, hadd⟩

theorem imported_of_run_addInput {weights : WeightTable} {entry : String × TensorType}
    {result : Unit} (himported : Graph.Imported inputs outputs work.graph)
    (hrun : (addInput weights entry).run.run work = (.ok result, last)) :
    Graph.Imported (inputs ++ [entry]) outputs last.graph := by
  unfold addInput at hrun
  cases hweight : weights.contains entry.1 with
  | true =>
      rw [if_pos hweight] at hrun
      obtain ⟨_, next, hthrow, -⟩ := run_bind_eq_ok_iff.mp hrun
      cases hthrow
  | false =>
      rw [if_neg (by simp [hweight])] at hrun
      obtain ⟨value, hplaceholder⟩ := add_of_run_addVariable hrun
      exact himported.placeholder hplaceholder

theorem imported_of_run_addInputs {weights : WeightTable}
    {entries : List (String × TensorType)} {result : Unit}
    (himported : Graph.Imported inputs outputs work.graph)
    (hrun : (entries.forM (addInput weights)).run.run work = (.ok result, last)) :
    Graph.Imported (inputs ++ entries) outputs last.graph := by
  induction entries generalizing inputs work with
  | nil =>
      obtain rfl := (Prod.mk.inj hrun).2
      rwa [List.append_nil]
  | cons entry entries ih =>
      obtain ⟨_, next, hfirst, hrest⟩ := run_bind_eq_ok_iff.mp hrun
      rw [List.append_cons]
      exact ih (imported_of_run_addInput himported hfirst) hrest

theorem imported_of_run_addOutput {name : String} {output : String × Handle}
    (himported : Graph.Imported inputs outputs work.graph)
    (hrun : (addOutput name).run.run work = (.ok output, last)) :
    output.1 = name ∧ Graph.Imported inputs (outputs ++ [output]) last.graph := by
  obtain ⟨value, next, hresolve, hrest⟩ := run_bind_eq_ok_iff.mp hrun
  have hnext : next.graph = work.graph := by
    obtain ⟨read, middle, hget, hvalue⟩ := run_bind_eq_ok_iff.mp hresolve
    obtain ⟨-, rfl⟩ := Prod.mk.inj hget
    cases hread : read.env.resolve importLabel name with
    | error error =>
        rw [hread] at hvalue
        cases hvalue
    | ok found =>
        rw [hread] at hvalue
        cases hvalue
        rfl
  rw [run_bind, run_get] at hrest
  dsimp only at hrest
  rcases hsave : next.graph.saveInPlace name value with ⟨error | saved, graph⟩
  · rw [hsave] at hrest
    cases hrest
  · rw [hsave] at hrest
    obtain ⟨houtput, rfl⟩ := Prod.mk.inj hrest
    obtain rfl := Except.ok.inj houtput
    rw [hnext] at hsave
    exact ⟨rfl, himported.saveInPlace hsave⟩

theorem imported_of_run_addOutputs {names : List String} {added : List (String × Handle)}
    (himported : Graph.Imported inputs outputs work.graph)
    (hrun : (names.mapM addOutput).run.run work = (.ok added, last)) :
    added.map Prod.fst = names ∧ Graph.Imported inputs (outputs ++ added) last.graph := by
  induction names generalizing outputs work added with
  | nil =>
      rw [List.mapM_nil, run_pure] at hrun
      obtain ⟨hadded, rfl⟩ := Prod.mk.inj hrun
      obtain rfl := Except.ok.inj hadded
      exact ⟨rfl, by rwa [List.append_nil]⟩
  | cons name names ih =>
      rw [List.mapM_cons] at hrun
      obtain ⟨first, next, hfirst, hrest⟩ := run_bind_eq_ok_iff.mp hrun
      obtain ⟨rest, final, hothers, hpure⟩ := run_bind_eq_ok_iff.mp hrest
      rw [run_pure] at hpure
      obtain ⟨hadded, rfl⟩ := Prod.mk.inj hpure
      obtain rfl := Except.ok.inj hadded
      obtain ⟨hname, himported⟩ := imported_of_run_addOutput himported hfirst
      obtain ⟨hnames, himported⟩ := ih himported hothers
      refine ⟨by rw [List.map_cons, hname, hnames], ?_⟩
      rwa [List.append_cons]

/-- The operators and weights of a model come between its inputs and its outputs. -/
theorem imported_of_run_model {predict init : NetDefinition} {loaded : LoadedModel}
    (himported : Graph.Imported [] [] work.graph)
    (hrun : (model predict init inputs).run.run work = (.ok loaded, last)) :
    loaded.outputs.map Prod.fst = predict.externalOutputs ∧
      Graph.Imported inputs loaded.outputs last.graph := by
  obtain ⟨weights, afterTable, htable, hrun⟩ := run_bind_eq_ok_iff.mp hrun
  obtain ⟨_, afterInputs, hinputs, hrun⟩ := run_bind_eq_ok_iff.mp hrun
  obtain ⟨_, afterWeights, hweights, hrun⟩ := run_bind_eq_ok_iff.mp hrun
  obtain ⟨_, afterOperators, hoperators, hrun⟩ := run_bind_eq_ok_iff.mp hrun
  obtain ⟨outputs, afterOutputs, houtputs, hrun⟩ := run_bind_eq_ok_iff.mp hrun
  rw [run_pure] at hrun
  obtain ⟨hloaded, rfl⟩ := Prod.mk.inj hrun
  obtain rfl := Except.ok.inj hloaded
  have himported := himported.of_grows ((leads_ofExcept _).of_run_eq htable)
  have himported := imported_of_run_addInputs himported hinputs
  have himported := himported.of_grows ((leads_forM grows_addWeight _).of_run_eq hweights)
  have himported := himported.of_grows ((leads_forM grows_operator _).of_run_eq hoperators)
  exact imported_of_run_addOutputs himported houtputs

end Lowering

namespace LoadedModel

theorem imported_of_load {predict init : NetDefinition} {names : List String}
    {types : List TensorType} {name : String} {loaded : LoadedModel} {graph : Graph}
    (hload : load predict init names types (.empty name) = (.ok loaded, graph)) :
    loaded.outputs.map Prod.fst = predict.externalOutputs ∧
      graph.Imported (names.zip types) loaded.outputs := by
  unfold load at hload
  split at hload
  · cases hload
  · dsimp only at hload
    rcases hrun : (Lowering.model predict init (names.zip types)).run.run
      ⟨.empty name, .empty⟩ with ⟨error | result, work⟩
    · rw [hrun] at hload
      cases hload
    · rw [hrun] at hload
      cases hload
      exact Lowering.imported_of_run_model (.empty name) hrun

end LoadedModel

namespace Graph.Imported

variable {inputs : List (String × Tensor)} {outputs : List (String × Handle)} {graph : Graph}

theorem nodup_names (himported : Imported (inputs.map fun input => (input.1, input.2.type))
      outputs graph) :
    (inputs.map Prod.fst).Nodup := by
  have hnames : graph.placeholderNodes.map (fun (_, node) => node.name) =
      inputs.map Prod.fst := by
    have hinputs := congrArg (List.map Prod.fst) himported.inputs
    rwa [List.map_map, List.map_map, List.map_map] at hinputs
  rw [← hnames]
  exact himported.built.wellBuilt.nodup_placeholder_names

/-- The inputs that a graph was imported for supply all its placeholders. -/
theorem supplies (himported : Imported (inputs.map fun input => (input.1, input.2.type))
      outputs graph) :
    ∀ placeholder ∈ graph.placeholderNodes,
      (Bindings.ofList inputs).Supplies placeholder.2 := by
  rintro ⟨position, node⟩ hplaceholder
  have hentry := List.mem_map_of_mem (f := fun (_, node) => (node.name, node.kind)) hplaceholder
  rw [himported.inputs, List.map_map, List.mem_map] at hentry
  obtain ⟨⟨name, tensor⟩, hinput, heq⟩ := hentry
  obtain ⟨hname, hkind⟩ := Prod.mk.inj heq
  refine ⟨tensor, ?_, hkind.symm⟩
  rw [show node.name = name from hname.symm]
  exact Bindings.get?_foldl_insert_of_mem himported.nodup_names hinput _

/-- What a run returns for a graph that was imported, output by output. -/
theorem forall₂_outputs {given : List (String × TensorType)} {verified : VerifiedGraph}
    (himported : Imported given outputs verified.graph) {returned : List (String × Tensor)}
    (hreturned : List.Forall₂ (fun (output : String × Tensor) (target : Nat × Node) =>
        output.1 = target.2.name ∧ target.2.kind = .variable .output output.2.type)
      returned verified.outputs) :
    List.Forall₂ (fun (declared : String × Handle) (output : String × Tensor) =>
        output.1 = declared.1 ∧ verified.nodes[declared.2.node]? =
          some ⟨declared.1, .variable .output output.2.type, [output.2.type]⟩)
      outputs returned := by
  have htargets : List.Forall₂ (fun (target : Nat × Node) (output : String × Tensor) =>
      target ∈ verified.outputs ∧ output.1 = target.2.name ∧
        target.2.kind = .variable .output output.2.type) verified.outputs returned :=
    (List.forall₂_and_left _ _).mpr ⟨fun _ hmem => hmem, hreturned.flip⟩
  rw [← himported.outputs, List.forall₂_map_left_iff]
  refine htargets.imp ?_
  rintro ⟨position, node⟩ ⟨name, tensor⟩ ⟨hmem, hname, hkind⟩
  obtain ⟨hnode, -⟩ := VerifiedGraph.mem_outputs_iff.mp hmem
  refine ⟨hname, hnode.trans ?_⟩
  rw [← hkind, ← verified.results_of_variable hnode hkind]

end Graph.Imported

/-- A model that was imported for some tensors verifies and runs on them.  The run returns
the outputs of the net in the order in which it declares them, each with the type of the
variable that was made for it.  Windows of pooling nodes must not begin beyond the right
edge of their inputs. -/
theorem loaded_model_runs {predict init : NetDefinition} {names : List String}
    {tensors : List Tensor} {name : String} {loaded : LoadedModel} {graph : Graph}
    (hload : LoadedModel.load predict init names (tensors.map Tensor.type) (.empty name) =
      (.ok loaded, graph)) :
    ∃ verified, graph.verify = .ok verified ∧ verified.graph = graph ∧
      (graph.PoolsWithinEdge → ∀ profiling, ∃ output,
        ((Engine.prepare verified profiling).run (.ofList (names.zip tensors))).1 = .ok output ∧
        output.outputs.map Prod.fst = predict.externalOutputs ∧
        List.Forall₂ (fun (declared : String × Handle) (returned : String × Tensor) =>
            returned.1 = declared.1 ∧ graph.nodes[declared.2.node]? =
              some ⟨declared.1, .variable .output returned.2.type, [returned.2.type]⟩)
          loaded.outputs output.outputs) := by
  obtain ⟨hnames, himported⟩ := LoadedModel.imported_of_load hload
  rw [List.zip_map_right] at himported
  have hcheck := himported.built.check_eq_ok
  refine ⟨⟨graph, hcheck⟩, Graph.verify_eq_ok_of_check hcheck, rfl, fun hedge profiling => ?_⟩
  have hfitted := Engine.prepared_fitted ⟨graph, hcheck⟩ profiling
  obtain ⟨output, hrun⟩ : ∃ output, ((Engine.prepare ⟨graph, hcheck⟩ profiling).run
      (.ofList (names.zip tensors))).1 = .ok output :=
    (hfitted.exists_run_eq_ok_iff hedge).mpr himported.supplies
  have houtputs := himported.forall₂_outputs (hfitted.run_eq_ok hrun).2.2
  refine ⟨output, hrun, ?_, houtputs⟩
  have hdeclared : output.outputs.map Prod.fst = loaded.outputs.map Prod.fst := by
    rw [← List.forall₂_eq_eq_eq, List.forall₂_map_left_iff, List.forall₂_map_right_iff]
    exact List.Forall₂.flip (houtputs.imp fun _ _ hreturned => hreturned.1)
  rw [hdeclared, hnames]

/-- A net of one pooling operator. -/
def poolingNet : NetDefinition where
  name := "net"
  operators := [⟨"MaxPool", ["x"], ["y"], some "pool",
    ⟨[("kernel", .int 2)], List.pairwise_singleton _ _⟩⟩]
  externalInputs := ["x"]
  externalOutputs := ["y"]

theorem poolingNet_runs :
    let input := Tensor.zeros .f32 ⟨[1, 1, 2, 2]⟩
    LoadedModel.load poolingNet .empty ["x"] [input.type] (.empty "pooled") =
      (.ok ⟨[("y", .first 2)]⟩, pooledGraph) ∧
    pooledGraph.PoolsWithinEdge ∧
    ∃ verified output, pooledGraph.verify = .ok verified ∧
      ((Engine.prepare verified true).run (.ofList [("x", input)])).1 = .ok output ∧
      output.outputs.map Prod.fst = ["y"] := by
  intro input
  have hload : LoadedModel.load poolingNet .empty ["x"] ([input].map Tensor.type)
      (.empty "pooled") = (.ok ⟨[("y", .first 2)]⟩, pooledGraph) := by
    with_unfolding_all rfl
  obtain ⟨verified, hverify, -, hruns⟩ := loaded_model_runs hload
  obtain ⟨output, hrun, hnames, -⟩ := hruns pooledGraph_withinEdge true
  exact ⟨hload, pooledGraph_withinEdge, verified, output, hverify, hrun, hnames⟩

end NetImport
