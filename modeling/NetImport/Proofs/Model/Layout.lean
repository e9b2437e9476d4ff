import NetImport.Proofs.Model.Atomicity
import NetImport.Proofs.Model.Weights

/-!
# The layout of an imported model

An import appends, in this order, a placeholder for each input of the caller, a constant for
each weight, the nodes of the operators, and an output variable with its save for each output
of the net.  The names of the net stand for the values that inputs, weights and operators
were bound to, and the saves read these values.
-/

namespace NetImport

/-- The node for an input of the caller. -/
def placeholderNode (input : String × TensorType) : Node :=
  ⟨input.1, .variable .placeholder input.2, [input.2]⟩

/-- The node for a weight. -/
def constantNode (weight : String × Tensor) : Node :=
  ⟨weight.1, .variable (.constant weight.2) weight.2.type, [weight.2.type]⟩

/-- Names with the values of successive nodes. -/
def handlesFrom (position : Nat) (names : List String) : List (String × Handle) :=
  (names.zipIdx position).map fun (name, i) => (name, .first i)

theorem handlesFrom_append (position : Nat) (names names' : List String) :
    handlesFrom position (names ++ names') =
      handlesFrom position names ++ handlesFrom (position + names.length) names' := by
  rw [handlesFrom, List.zipIdx_append, List.map_append]
  rfl

/-- A value that is saved under the name of an output. -/
structure SavedOutput where
  name : String
  value : Handle
  type : TensorType

namespace SavedOutput

/-- The output variables and saves of some outputs. -/
def nodesFrom : Nat → List SavedOutput → List Node
  | _, [] => []
  | position, output :: outputs =>
      ⟨output.name, .variable .output output.type, [output.type]⟩ ::
        ⟨"save_" ++ output.name, .save output.value position, []⟩ ::
          nodesFrom (position + 2) outputs

/-- The names of some outputs with their variables. -/
def variablesFrom : Nat → List SavedOutput → List (String × Handle)
  | _, [] => []
  | position, output :: outputs =>
      (output.name, .first position) :: variablesFrom (position + 2) outputs

/-- The variables stand where they are said to. -/
theorem getElem?_of_mem_variablesFrom {saved : List SavedOutput} {before : List Node}
    {entry : String × Handle} (hentry : entry ∈ variablesFrom before.length saved) :
    ∃ type, (before ++ nodesFrom before.length saved)[entry.2.node]? =
      some ⟨entry.1, .variable .output type, [type]⟩ := by
  induction saved generalizing before with
  | nil => cases hentry
  | cons output saved ih =>
      rcases List.mem_cons.mp hentry with rfl | hlater
      · exact ⟨output.type, by simp [nodesFrom, Handle.first]⟩
      · have hrest := @ih (before ++
          [⟨output.name, .variable .output output.type, [output.type]⟩,
            ⟨"save_" ++ output.name, .save output.value before.length, []⟩])
        simp only [List.length_append, List.length_cons, List.length_nil, List.append_assoc,
          List.cons_append, List.nil_append] at hrest
        exact hrest hlater

end SavedOutput

namespace Lowering

variable {α : Type} {work last : Workspace}

/-- The steps of an import before its outputs. -/
def beforeOutputs (predict : NetDefinition) (weights : WeightTable)
    (inputs : List (String × TensorType)) : Lowering Unit := do
  inputs.forM (addInput weights)
  weights.entries.forM addWeight
  predict.operators.forM operator

/-! ## Inputs and weights -/

theorem appends_of_run_addVariable {name : String}
    {add : Graph → Except GraphError (Graph × Handle)} {role : VariableRole}
    {type : TensorType} {result : Unit}
    (hadd : ∀ graph, add graph = graph.append name (.variable role type))
    (hrun : (addVariable name add).run.run work = (.ok result, last)) :
    work.Appends last [⟨name, .variable role type, [type]⟩]
      [(name, .first work.graph.nodes.size)] := by
  obtain ⟨value, next, happend, hbind⟩ := run_bind_eq_ok_iff.mp hrun
  obtain ⟨results, hinfer, happends, rfl⟩ := appends_of_run_append hadd happend
  obtain rfl := Typing.results_of_infer_variable hinfer
  exact happends.trans (appends_of_run_bindName hbind)

theorem appends_of_run_addInput {weights : WeightTable} {entry : String × TensorType}
    {result : Unit} (hrun : (addInput weights entry).run.run work = (.ok result, last)) :
    work.Appends last [placeholderNode entry] [(entry.1, .first work.graph.nodes.size)] := by
  unfold addInput at hrun
  by_cases hweight : weights.contains entry.1
  · rw [if_pos hweight] at hrun
    obtain ⟨_, next, hthrow, -⟩ := run_bind_eq_ok_iff.mp hrun
    cases hthrow
  · rw [if_neg hweight] at hrun
    exact appends_of_run_addVariable (fun _ => rfl) hrun

theorem appends_of_run_addWeight {entry : String × Tensor} {result : Unit}
    (hrun : (addWeight entry).run.run work = (.ok result, last)) :
    work.Appends last [constantNode entry] [(entry.1, .first work.graph.nodes.size)] :=
  appends_of_run_addVariable (fun _ => rfl) hrun

/-- Steps that append and bind one node each do so one after the other. -/
theorem appends_of_run_forM {step : α → Lowering Unit} {node : α → Node} {name : α → String}
    (hstep : ∀ {entry : α} {work last : Workspace} {result : Unit},
      (step entry).run.run work = (.ok result, last) →
        work.Appends last [node entry] [(name entry, .first work.graph.nodes.size)])
    {entries : List α} {result : Unit}
    (hrun : (entries.forM step).run.run work = (.ok result, last)) :
    work.Appends last (entries.map node)
      (handlesFrom work.graph.nodes.size (entries.map name)) := by
  induction entries generalizing work with
  | nil =>
      obtain rfl := (Prod.mk.inj hrun).2
      exact .refl work
  | cons entry entries ih =>
      obtain ⟨_, next, hfirst, hrest⟩ := run_bind_eq_ok_iff.mp hrun
      have hentry := hstep hfirst
      have hentries := ih hrest
      rw [hentry.size_eq] at hentries
      exact hentry.trans hentries

/-! ## Outputs -/

theorem saves_of_run_addOutput {name : String} {entry : String × Handle}
    (hrun : (addOutput name).run.run work = (.ok entry, last)) :
    ∃ value type, work.env.get? name = some value ∧
      work.graph.valueType value = .ok type ∧
      entry = (name, .first work.graph.nodes.size) ∧
      work.Appends last (SavedOutput.nodesFrom work.graph.nodes.size [⟨name, value, type⟩]) [] := by
  obtain ⟨value, next, hresolve, hrest⟩ := run_bind_eq_ok_iff.mp hrun
  obtain ⟨read, middle, hget, hvalue⟩ := run_bind_eq_ok_iff.mp hresolve
  obtain ⟨hread, rfl⟩ := Prod.mk.inj hget
  obtain rfl := Except.ok.inj hread
  obtain ⟨hresolved, rfl⟩ := run_ofExcept_eq_ok_iff.mp hvalue
  have hbound : next.env.get? name = some value := by
    unfold Environment.resolve at hresolved
    split at hresolved
    · next found hfound => rw [hfound, Except.ok.inj hresolved]
    · cases hresolved
  rw [run_bind, run_get] at hrest
  dsimp only at hrest
  rcases next.graph.saveInPlace_cases name value with
    ⟨error, hrefused⟩ | ⟨type, withVariable, output, graph, saved, htype, hvariable, hsave, heq⟩
  · rw [hrefused] at hrest
    cases hrest
  · rw [heq] at hrest
    obtain ⟨hentry, rfl⟩ := Prod.mk.inj hrest
    obtain ⟨results, hinfer, -, rfl, rfl⟩ := Graph.append_eq_ok_iff.mp hvariable
    obtain ⟨saveResults, hsaveInfer, -, rfl, -⟩ := Graph.append_eq_ok_iff.mp hsave
    obtain rfl := Typing.results_of_infer_variable hinfer
    have hnone : saveResults = [] := by
      rcases Typing.results_of_infer hsaveInfer with ⟨-, hnone⟩ | ⟨hother, -⟩
      · exact hnone
      · exact absurd rfl (hother _ _)
    refine ⟨value, type, hbound, htype, (Except.ok.inj hentry).symm, rfl, ?_, ?_⟩
    · simp [SavedOutput.nodesFrom, Handle.first, hnone]
    · simp

theorem saves_of_run_addOutputs {names : List String} {entries : List (String × Handle)}
    (hrun : (names.mapM addOutput).run.run work = (.ok entries, last)) :
    ∃ saved : List SavedOutput, saved.map SavedOutput.name = names ∧
      (∀ output ∈ saved, work.env.get? output.name = some output.value ∧
        last.graph.valueType output.value = .ok output.type) ∧
      entries = SavedOutput.variablesFrom work.graph.nodes.size saved ∧
      work.Appends last (SavedOutput.nodesFrom work.graph.nodes.size saved) [] := by
  induction names generalizing work entries with
  | nil =>
      rw [List.mapM_nil, run_pure] at hrun
      obtain ⟨hentries, rfl⟩ := Prod.mk.inj hrun
      exact ⟨[], rfl, by simp, (Except.ok.inj hentries).symm, .refl work⟩
  | cons name names ih =>
      rw [List.mapM_cons] at hrun
      obtain ⟨first, next, hfirst, hrest⟩ := run_bind_eq_ok_iff.mp hrun
      obtain ⟨others, final, hothers, hpure⟩ := run_bind_eq_ok_iff.mp hrest
      rw [run_pure] at hpure
      obtain ⟨hentries, rfl⟩ := Prod.mk.inj hpure
      obtain ⟨value, type, hbound, htype, rfl, hsaved⟩ := saves_of_run_addOutput hfirst
      obtain ⟨saved, hnames, hvalues, rfl, hlater⟩ := ih hothers
      have hsize : next.graph.nodes.size = work.graph.nodes.size + 2 := hsaved.size_eq
      rw [hsize] at hlater hentries
      rw [hsaved.env_eq] at hvalues
      refine ⟨⟨name, value, type⟩ :: saved, ?_, ?_, (Except.ok.inj hentries).symm, ?_⟩
      · rw [List.map_cons, hnames]
      · intro output houtput
        rcases List.mem_cons.mp houtput with rfl | hother
        · exact ⟨hbound, (hsaved.trans hlater).valueType_eq htype⟩
        · exact hvalues output hother
      · exact hsaved.trans hlater

end Lowering

/-- What an import of a predict net and some weights has appended to a graph.  The outputs
are taken from a workspace `before`, in which the operators have left nodes and bindings. -/
structure ImportLayout (predict : NetDefinition) (weights : WeightTable)
    (inputs : List (String × TensorType)) (graph next : Graph) (loaded : LoadedModel)
    (before : Workspace) (operatorNodes : List Node) (operatorBindings : List (String × Handle))
    (saved : List SavedOutput) : Prop where
  steps : (Lowering.beforeOutputs predict weights inputs).run.run ⟨graph, .empty⟩ =
    (.ok (), before)
  appended : before.graph.nodes.toList = graph.nodes.toList ++ inputs.map placeholderNode ++
    weights.entries.map constantNode ++ operatorNodes
  saves : next.nodes.toList =
    before.graph.nodes.toList ++ SavedOutput.nodesFrom before.graph.nodes.size saved
  bound : before.env.entries = handlesFrom graph.nodes.size
    (inputs.map Prod.fst ++ weights.entries.map Prod.fst) ++ operatorBindings
  operatorNames : operatorBindings.map Prod.fst = predict.operators.flatMap Operator.boundNames
  operatorKinds : ∀ node ∈ operatorNodes, node.kind.Inner
  operatorConstants : List.Forall₂
    (fun (second : Operator × String) (constant : Node × Nat) =>
      constant.1.name = Lowering.nodeName second.1 second.2 ∧
        (second.2, Handle.first constant.2) ∈ operatorBindings)
    (Operator.auxiliaries predict.operators)
    ((operatorNodes.zipIdx (graph.nodes.size + inputs.length + weights.entries.length)).filter
      fun entry => entry.1.isVariable)
  savedNames : saved.map SavedOutput.name = predict.externalOutputs
  savedValues : ∀ output ∈ saved, before.env.get? output.name = some output.value ∧
    next.valueType output.value = .ok output.type
  outputs : loaded.outputs = SavedOutput.variablesFrom before.graph.nodes.size saved
  writtenOnce : ∀ output ∈ loaded.outputs, next.writers output.2.node = 1

namespace Lowering

theorem layout_of_run_model {predict init : NetDefinition} {inputs : List (String × TensorType)}
    {graph : Graph} {last : Workspace} {loaded : LoadedModel} (hverifies : graph.Verifies)
    (hrun : (model predict init inputs).run.run ⟨graph, .empty⟩ = (.ok loaded, last)) :
    ∃ weights before operatorNodes operatorBindings saved,
      WeightTable.ofNet init = .ok weights ∧
      ImportLayout predict weights inputs graph last.graph loaded before operatorNodes
        operatorBindings saved := by
  have hbuilds := (builds_model predict init inputs).of_run_eq hrun
  have hlast : last.graph.Verifies := hbuilds.verifies hverifies
  obtain ⟨weights, start, htable, hrun⟩ := run_bind_eq_ok_iff.mp hrun
  obtain ⟨hweightTable, rfl⟩ := run_ofExcept_eq_ok_iff.mp htable
  obtain ⟨_, afterInputs, hinputs, hrun⟩ := run_bind_eq_ok_iff.mp hrun
  obtain ⟨_, afterWeights, hweights, hrun⟩ := run_bind_eq_ok_iff.mp hrun
  obtain ⟨_, before, hoperators, hrun⟩ := run_bind_eq_ok_iff.mp hrun
  obtain ⟨outputs, afterOutputs, houtputs, hrun⟩ := run_bind_eq_ok_iff.mp hrun
  rw [run_pure] at hrun
  obtain ⟨hloaded, rfl⟩ := Prod.mk.inj hrun
  obtain rfl := Except.ok.inj hloaded
  have hplaceholders := appends_of_run_forM appends_of_run_addInput hinputs
  have hconstants := appends_of_run_forM appends_of_run_addWeight hweights
  obtain ⟨operatorNodes, operatorBindings, hlowers⟩ := lowers_of_run_operators hoperators
  obtain ⟨saved, hnames, hvalues, rfl, hsaves⟩ := saves_of_run_addOutputs houtputs
  have hall := (hplaceholders.trans hconstants).trans hlowers.appends
  have hsize : afterWeights.graph.nodes.size =
      graph.nodes.size + inputs.length + weights.entries.length := by
    rw [hconstants.size_eq, hplaceholders.size_eq, List.length_map, List.length_map]
  refine ⟨weights, before, operatorNodes, operatorBindings, saved, hweightTable, ?_⟩
  constructor
  · exact run_bind_eq_ok_iff.mpr
      ⟨_, _, hinputs, run_bind_eq_ok_iff.mpr ⟨_, _, hweights, hoperators⟩⟩
  · rw [hall.nodes_eq, List.append_assoc, List.append_assoc, List.append_assoc]
  · exact hsaves.nodes_eq
  · rw [hall.entries_eq, handlesFrom_append, hplaceholders.size_eq, List.length_map,
      List.length_map]
    rfl
  · exact hlowers.boundNames
  · exact hlowers.inner
  · rw [← hsize]
    exact hlowers.constants
  · exact hnames
  · exact hvalues
  · rfl
  · intro entry hentry
    have hstands : ∃ type, afterOutputs.graph.nodes.toList[entry.2.node]? =
        some ⟨entry.1, .variable .output type, [type]⟩ := by
      rw [hsaves.nodes_eq]
      exact SavedOutput.getElem?_of_mem_variablesFrom hentry
    obtain ⟨type, hnode⟩ := hstands
    rw [Array.getElem?_toList] at hnode
    exact hlast.savedOnce hnode rfl

end Lowering

/-- What an import into a graph that verifies has appended when it succeeds: placeholders for
the inputs in their order, constants for the weights in the order of the init net, the nodes
of the operators with a constant for each declared second output, and one saved variable for
each output of the net.  The graph still verifies. -/
theorem load_appends_layout {predict init : NetDefinition} {names : List String}
    {types : List TensorType} {graph next : Graph} {verified : VerifiedGraph}
    {loaded : LoadedModel} (hverify : graph.verify = .ok verified)
    (hload : LoadedModel.load predict init names types graph = (.ok loaded, next)) :
    names.length = types.length ∧
      (∃ weights before operatorNodes operatorBindings saved,
        WeightTable.ofNet init = .ok weights ∧
        List.Forall₂ (fun (op : Operator) (weight : String × Tensor) =>
          Fill.target op = .ok weight.1 ∧ Fill.tensor op = .ok weight.2)
          init.operators weights.entries ∧
        ImportLayout predict weights (names.zip types) graph next loaded before operatorNodes
          operatorBindings saved) ∧
      ∃ reverified, next.verify = .ok reverified ∧ reverified.graph = next := by
  have hverifies : graph.Verifies := by
    rw [← Graph.graph_of_verify_eq_ok hverify]
    exact Graph.check_eq_ok_iff_verifies.mp verified.verified
  unfold LoadedModel.load at hload
  by_cases hlength : names.length ≠ types.length
  · rw [if_pos hlength] at hload
    cases hload
  · rw [if_neg hlength] at hload
    dsimp only at hload
    rcases hrun : (Lowering.model predict init (names.zip types)).run.run ⟨graph, .empty⟩ with
      ⟨error | result, last⟩ <;> rw [hrun] at hload
    · cases hload
    · obtain ⟨hresult, rfl⟩ := Prod.mk.inj hload
      obtain rfl := Except.ok.inj hresult
      have hbuilds := (Lowering.builds_model predict init (names.zip types)).of_run_eq hrun
      have hcheck := Graph.check_eq_ok_iff_verifies.mpr (hbuilds.verifies hverifies)
      obtain ⟨weights, before, operatorNodes, operatorBindings, saved, hweights, hlayout⟩ :=
        Lowering.layout_of_run_model hverifies hrun
      have hfills := (WeightTable.ofNet_eq_ok_iff.mp hweights).imp fun op weight hyields =>
        And.intro (Fill.target_eq_ok_iff.mpr hyields.outputs) hyields.tensor
      exact ⟨not_ne_iff.mp hlength,
        ⟨weights, before, operatorNodes, operatorBindings, saved, hweights, hfills, hlayout⟩,
        ⟨last.graph, hcheck⟩, Graph.verify_eq_ok_of_check hcheck, rfl⟩

/-- A graph of one input that is also its output. -/
def passingGraph : Graph where
  name := "passing"
  nodes := #[⟨"x", .variable .placeholder ⟨.f32, ⟨[2]⟩⟩, [⟨.f32, ⟨[2]⟩⟩]⟩,
    ⟨"y", .variable .output ⟨.f32, ⟨[2]⟩⟩, [⟨.f32, ⟨[2]⟩⟩]⟩,
    ⟨"save_y", .save (.first 0) 1, []⟩]

/-- A net that joins its input and a weight, and returns both extents as well. -/
def joiningNet : NetDefinition where
  name := "joining"
  operators := [⟨"Concat", ["a", "w"], ["b", "extents"], some "joined",
    ⟨[("axis", .int 0)], List.pairwise_singleton _ _⟩⟩]
  externalInputs := ["a"]
  externalOutputs := ["b", "extents"]

/-- The weight of that net. -/
def joiningWeights : NetDefinition where
  name := "weights"
  operators := [⟨"ConstantFill", [], ["w"], none,
    ⟨[("shape", .ints [1])], List.pairwise_singleton _ _⟩⟩]
  externalInputs := []
  externalOutputs := ["w"]

theorem joiningNet_layout :
    ∃ verified loaded next, passingGraph.verify = .ok verified ∧
      LoadedModel.load joiningNet joiningWeights ["a"] [⟨.f32, ⟨[3]⟩⟩] passingGraph =
        (.ok loaded, next) ∧
      loaded.outputs = [("b", .first 7), ("extents", .first 9)] ∧
      ∃ reverified, next.verify = .ok reverified ∧ reverified.graph = next := by
  have hcheck : passingGraph.check = .ok () := by cbv
  have hverify := Graph.verify_eq_ok_of_check hcheck
  have hsucceeds : (LoadedModel.load joiningNet joiningWeights ["a"] [⟨.f32, ⟨[3]⟩⟩]
      passingGraph).1.toOption.map LoadedModel.outputs =
        some [("b", .first 7), ("extents", .first 9)] := by decide +kernel
  rcases hload : LoadedModel.load joiningNet joiningWeights ["a"] [⟨.f32, ⟨[3]⟩⟩]
    passingGraph with ⟨error | loaded, next⟩ <;> rw [hload] at hsucceeds
  · cases hsucceeds
  · exact ⟨_, loaded, next, hverify, rfl, Option.some.inj hsucceeds,
      (load_appends_layout hverify hload).2.2⟩

end NetImport
