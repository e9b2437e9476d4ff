import NetImport.Proofs.Execution.Binding

/-!
# Type soundness of execution

Execution of a verified graph never fails, apart from windows of a pooling node that
begin beyond the right edge of its input: each node can read its operands and its kernel
accepts them, and what it writes has the type that the node was given.  So a run is
refused only for its bindings, and then before any node is executed.
-/

namespace NetImport

namespace Graph

/-- The type of the value that a node writes; a save writes a copy of its input. -/
def writtenType (graph : Graph) (node : Node) : Option TensorType :=
  match node.kind with
  | .save input _ => (graph.valueType input).toOption
  | _ => node.results.head?

def writtenBytes (graph : Graph) (node : Node) : Nat :=
  ((graph.writtenType node).map TensorType.sizeBytes).getD 0

/-- The nodes that a run executes, in order. -/
def executedNodes (graph : Graph) : List Node :=
  graph.nodes.toList.filter fun node => !node.isVariable

/-- No pooling node has a window that begins beyond the right edge of its input. -/
def PoolsWithinEdge (graph : Graph) : Prop :=
  ∀ node ∈ graph.nodes, node.kind.WithinEdge graph.nodes

theorem writtenBytes_of_result {graph : Graph} {node : Node} {type : TensorType}
    (hkind : node.kind.Computes) (hresults : node.results = [type]) :
    graph.writtenBytes node = type.sizeBytes := by
  simp only [writtenBytes, writtenType]
  split
  · next hsave =>
      rw [hsave] at hkind
      exact hkind.elim
  · rw [hresults]
    rfl

theorem writtenBytes_of_save {graph : Graph} {node : Node} {input : Handle} {output : Nat}
    {type : TensorType} (hkind : node.kind = .save input output)
    (hinput : graph.valueType input = .ok type) :
    graph.writtenBytes node = type.sizeBytes := by
  simp only [writtenBytes, writtenType, hkind, hinput, Except.toOption, Option.map_some,
    Option.getD_some]

/-- What a run keeps of an executed node. -/
def recordOf (graph : Graph) (node : Node) : NodeMetrics :=
  ⟨node.name, node.kind.label, 0, graph.writtenBytes node⟩

/-- What a run has counted after some more nodes. -/
def account (graph : Graph) (profiling : Bool) (nodes : List Node) (metrics : Metrics) :
    Metrics :=
  nodes.foldl (fun metrics node => metrics.record (graph.recordOf node) profiling) metrics

theorem executed_account (graph : Graph) (profiling : Bool) (nodes : List Node)
    (metrics : Metrics) :
    (graph.account profiling nodes metrics).executed = metrics.executed + nodes.length := by
  induction nodes generalizing metrics with
  | nil => rfl
  | cons node nodes ih =>
      rw [account, List.foldl_cons, ← account, ih, List.length_cons]
      simp only [Metrics.record]
      omega

theorem peakBytes_account (graph : Graph) (profiling : Bool) (nodes : List Node)
    (metrics : Metrics) :
    (graph.account profiling nodes metrics).peakBytes =
      (nodes.map graph.writtenBytes).foldl max metrics.peakBytes := by
  induction nodes generalizing metrics with
  | nil => rfl
  | cons node nodes ih =>
      rw [account, List.foldl_cons, ← account, ih]
      rfl

theorem nodes_account (graph : Graph) (profiling : Bool) (nodes : List Node)
    (metrics : Metrics) :
    (graph.account profiling nodes metrics).nodes =
      metrics.nodes ++ if profiling then nodes.map graph.recordOf else [] := by
  induction nodes generalizing metrics with
  | nil => cases profiling <;> simp [account]
  | cons node nodes ih =>
      rw [account, List.foldl_cons, ← account, ih]
      cases profiling <;> simp [Metrics.record]

theorem length_executedNodes (graph : Graph) :
    graph.executedNodes.length = graph.countNodes := by
  simp [executedNodes, countNodes, ← Array.length_toList]

end Graph

namespace Engine

/-! ## Steps -/

section ExecuteEach

variable {Slot Failure : Type} {fits : Node → Slot → Prop} {graph : VerifiedGraph}
  {step : Node → Nat → Array Slot → Except Failure (Nat × Array Slot)}

/-- A step that succeeds leaves fitting buffers, and counts the bytes of the type of its
node. -/
def Preserves (fits : Node → Slot → Prop) (graph : VerifiedGraph)
    (step : Node → Nat → Array Slot → Except Failure (Nat × Array Slot)) : Prop :=
  ∀ {position bytes : Nat} {node : Node} {buffers next : Array Slot},
    graph.nodes[position]? = some node → node.isVariable = false →
    FittedBy fits graph buffers → step node position buffers = .ok (bytes, next) →
    FittedBy fits graph next ∧ bytes = graph.graph.writtenBytes node

/-- Steps in order leave fitting buffers, also when one of them fails, and count what they
write. -/
theorem FittedBy.executeEach (hstep : Preserves fits graph step) (profiling : Bool)
    {nodes : List (Node × Nat)} (hnodes : ∀ pair ∈ nodes, graph.nodes[pair.2]? = some pair.1)
    {buffers : Array Slot} (hfitted : FittedBy fits graph buffers) (metrics : Metrics) :
    FittedBy fits graph (executeEach step profiling nodes buffers metrics).2 ∧
      ∀ done, (Engine.executeEach step profiling nodes buffers metrics).1 = .ok done →
        done = graph.graph.account profiling
          ((nodes.map Prod.fst).filter fun node => !node.isVariable) metrics := by
  induction nodes generalizing buffers metrics with
  | nil => exact ⟨hfitted, fun done hdone => (Except.ok.inj hdone).symm⟩
  | cons pair nodes ih =>
      obtain ⟨node, position⟩ := pair
      rw [List.forall_mem_cons] at hnodes
      obtain ⟨hnode, hrest⟩ := hnodes
      unfold Engine.executeEach
      cases hvariable : node.isVariable with
      | true =>
          simpa [Graph.account, hvariable] using ih hrest hfitted metrics
      | false =>
          cases htaken : step node position buffers with
          | error failure => exact ⟨hfitted, fun done hdone => by cases hdone⟩
          | ok written =>
              obtain ⟨bytes, next⟩ := written
              obtain ⟨hnext, rfl⟩ := hstep hnode hvariable hfitted htaken
              have hrecord :
                  (⟨node.name, node.kind.label, 0, graph.graph.writtenBytes node⟩ : NodeMetrics) =
                    graph.graph.recordOf node := rfl
              simpa [Graph.account, hvariable, hrecord] using
                ih hrest hnext (metrics.record (graph.graph.recordOf node) profiling)

end ExecuteEach

/-! ## Nodes -/

namespace Fitted

variable {graph : VerifiedGraph} {buffers : Array Buffer}

/-- Preservation: an executed node leaves fitting buffers, and counts the bytes of its
type. -/
theorem executeNode (hfitted : Fitted graph buffers) {position bytes : Nat} {node : Node}
    {next : Array Buffer} (hnode : graph.nodes[position]? = some node)
    (hvariable : node.isVariable = false)
    (hdone : executeNode node position buffers = .ok (bytes, next)) :
    Fitted graph next ∧ bytes = graph.graph.writtenBytes node := by
  rcases node.kind.variable_or_save_or_computes with hkind | ⟨input, output, hkind⟩ | hkind
  · exact absurd hkind (by simpa [Node.isVariable] using hvariable)
  · obtain ⟨hbefore, target, type, htarget, htargetKind, hresults, hinput⟩ :=
      graph.target_of_save hnode hkind
    rw [executeNode_of_save hkind hbefore, bind_eq_ok_iff] at hdone
    obtain ⟨tensor, hread, hwritten⟩ := hdone
    obtain ⟨rfl, rfl⟩ := Prod.mk.inj (Except.ok.inj hwritten)
    have htype := hfitted.type_of_readOperand hinput hread
    have hconstant : target.constant? = none := by
      simp [Node.constant?, Node.role?, htargetKind]
    constructor
    · exact hfitted.set htarget ((Buffer.fits_iff_of_result hconstant hresults).mpr
        ⟨tensor, rfl, htype⟩)
    · rw [Graph.writtenBytes_of_save hkind (Typing.operand_of_operand_take hinput).2,
        Tensor.sizeBytes, htype]
  · obtain ⟨hconstant, type, hresults⟩ := graph.result_of_computes hnode hkind
    obtain ⟨buffer, hbuffer, hfits⟩ := hfitted.exists_buffer hnode
    obtain ⟨current, rfl, hcurrent⟩ :=
      (Buffer.fits_iff_of_result hconstant hresults).mp hfits
    rw [executeNode_of_computes hkind position hbuffer, bind_eq_ok_iff] at hdone
    obtain ⟨tensor, hkernel, hwritten⟩ := hdone
    obtain ⟨rfl, rfl⟩ := Prod.mk.inj (Except.ok.inj hwritten)
    have htype : tensor.type = type :=
      ((applyKernel_fillsOutput hkind _).keepsType hkernel).trans hcurrent
    constructor
    · exact hfitted.set hnode ((Buffer.fits_iff_of_result hconstant hresults).mpr
        ⟨tensor, rfl, htype⟩)
    · rw [Graph.writtenBytes_of_result hkind hresults, Tensor.sizeBytes, htype]

/-- Progress: every node that is no variable can be executed. -/
theorem exists_executeNode (hfitted : Fitted graph buffers)
    (hedge : graph.graph.PoolsWithinEdge) {position : Nat} {node : Node}
    (hnode : graph.nodes[position]? = some node) (hvariable : node.isVariable = false) :
    ∃ bytes next, Engine.executeNode node position buffers = .ok (bytes, next) := by
  rcases node.kind.variable_or_save_or_computes with hkind | ⟨input, output, hkind⟩ | hkind
  · exact absurd hkind (by simpa [Node.isVariable] using hvariable)
  · obtain ⟨hbefore, target, type, htarget, htargetKind, hresults, hinput⟩ :=
      graph.target_of_save hnode hkind
    obtain ⟨tensor, hread, -⟩ := hfitted.exists_readOperand hinput
    rw [executeNode_of_save hkind hbefore, hread]
    exact ⟨_, _, rfl⟩
  · obtain ⟨hconstant, type, hresults⟩ := graph.result_of_computes hnode hkind
    obtain ⟨buffer, hbuffer, hfits⟩ := hfitted.exists_buffer hnode
    obtain ⟨current, rfl, hcurrent⟩ :=
      (Buffer.fits_iff_of_result hconstant hresults).mp hfits
    have hinfer := graph.inferred hnode
    rw [hresults] at hinfer
    have hwithin : node.kind.WithinEdge (graph.nodes.take position) :=
      fun input pool found hpool hfound => hedge node (Array.mem_of_getElem? hnode) input pool
        found hpool (Typing.operand_of_operand_take hfound).2
    obtain ⟨tensor, hkernel⟩ := exists_applyKernel hkind hinfer hwithin
      (fun value _ found hfound => hfitted.exists_readOperand hfound) hcurrent
    rw [executeNode_of_computes hkind position hbuffer, hkernel]
    exact ⟨_, _, rfl⟩

theorem executeStep_preserves (graph : VerifiedGraph) :
    Preserves Buffer.Fits graph executeStep :=
  fun hnode hvariable hfitted hdone =>
    Fitted.executeNode hfitted hnode hvariable (mapError_eq_ok_iff.mp hdone)

theorem executeNodes (hfitted : Fitted graph buffers) (profiling : Bool)
    {nodes : List (Node × Nat)} (hnodes : ∀ pair ∈ nodes, graph.nodes[pair.2]? = some pair.1)
    (metrics : Metrics) :
    Fitted graph (executeNodes profiling nodes buffers metrics).2 ∧
      ∀ done, (Engine.executeNodes profiling nodes buffers metrics).1 = .ok done →
        done = graph.graph.account profiling
          ((nodes.map Prod.fst).filter fun node => !node.isVariable) metrics :=
  FittedBy.executeEach (executeStep_preserves graph) profiling hnodes hfitted metrics

theorem exists_executeNodes (hfitted : Fitted graph buffers)
    (hedge : graph.graph.PoolsWithinEdge) (profiling : Bool) {nodes : List (Node × Nat)}
    (hnodes : ∀ pair ∈ nodes, graph.nodes[pair.2]? = some pair.1) (metrics : Metrics) :
    ∃ done, (Engine.executeNodes profiling nodes buffers metrics).1 = .ok done := by
  induction nodes generalizing buffers metrics with
  | nil => exact ⟨metrics, rfl⟩
  | cons pair nodes ih =>
      obtain ⟨node, position⟩ := pair
      rw [List.forall_mem_cons] at hnodes
      obtain ⟨hnode, hrest⟩ := hnodes
      unfold Engine.executeNodes executeEach
      cases hvariable : node.isVariable with
      | true => exact ih hfitted hrest metrics
      | false =>
          obtain ⟨bytes, next, hdone⟩ := hfitted.exists_executeNode hedge hnode hvariable
          have hstep : executeStep node position buffers = .ok (bytes, next) := by
            rw [executeStep, hdone]
            rfl
          simp only [hstep]
          exact ih (hfitted.executeNode hnode hvariable hdone).1 hrest _

end Fitted

/-! ## Runs -/

/-- The engine after runs with some bindings, each of them refused or not. -/
def afterRuns (engine : Engine) (earlier : List Bindings) : Engine :=
  earlier.foldl (fun engine bindings => (engine.run bindings).2) engine

section

variable {graph : VerifiedGraph} {profiling : Bool} {buffers : Array Buffer}

theorem mem_zipIdx_nodes (graph : VerifiedGraph) :
    ∀ pair ∈ graph.nodes.toList.zipIdx, graph.nodes[pair.2]? = some pair.1 :=
  fun _ hmem => Graph.mem_zipIdx_iff.mp hmem

theorem run_cases (graph : VerifiedGraph) (profiling : Bool) (buffers : Array Buffer)
    (bindings : Bindings) :
    (∃ error bound, bindPlaceholders bindings graph.placeholders buffers =
        (.error error, bound) ∧
      run ⟨graph, profiling, buffers⟩ bindings = (.error error, ⟨graph, profiling, bound⟩)) ∨
    ∃ bound, bindPlaceholders bindings graph.placeholders buffers = (.ok (), bound) ∧
      ((∃ error last, executeNodes profiling graph.nodes.toList.zipIdx bound .empty =
          (.error error, last) ∧
        run ⟨graph, profiling, buffers⟩ bindings =
          (.error error, ⟨graph, profiling, last⟩)) ∨
      ∃ metrics last, executeNodes profiling graph.nodes.toList.zipIdx bound .empty =
          (.ok metrics, last) ∧
        run ⟨graph, profiling, buffers⟩ bindings =
          (.ok ⟨readOutputs graph last, metrics⟩, ⟨graph, profiling, last⟩)) := by
  rcases hbind : bindPlaceholders bindings graph.placeholders buffers with ⟨error | ⟨⟩, bound⟩
  · exact .inl ⟨error, bound, rfl, by simp only [run, hbind]⟩
  · refine .inr ⟨bound, rfl, ?_⟩
    rcases hexecute : executeNodes profiling graph.nodes.toList.zipIdx bound .empty with
      ⟨error | metrics, last⟩
    · exact .inl ⟨error, last, rfl, by simp only [run, hbind, hexecute]⟩
    · exact .inr ⟨metrics, last, rfl, by simp only [run, hbind, hexecute]⟩

theorem Fitted.of_bindPlaceholders (hfitted : Fitted graph buffers) {bindings : Bindings}
    {outcome : Except RunError Unit} {bound : Array Buffer}
    (hbind : Engine.bindPlaceholders bindings graph.placeholders buffers = (outcome, bound)) :
    Fitted graph bound := by
  have hbound : Fitted graph
      (Engine.bindPlaceholders bindings graph.placeholders buffers).2 :=
    hfitted.bindPlaceholders
  rwa [hbind] at hbound

/-- A run leaves the graph alone and the buffers fitting. -/
theorem Fitted.run (hfitted : Fitted graph buffers) (bindings : Bindings) :
    ∃ next, (Engine.run ⟨graph, profiling, buffers⟩ bindings).2 = ⟨graph, profiling, next⟩ ∧
      Fitted graph next := by
  rcases run_cases graph profiling buffers bindings with
    ⟨error, bound, hbind, hrun⟩ | ⟨bound, hbind, ⟨error, last, hexecute, hrun⟩ |
      ⟨metrics, last, hexecute, hrun⟩⟩
  · exact ⟨bound, by rw [hrun], hfitted.of_bindPlaceholders hbind⟩
  · have hlast := ((hfitted.of_bindPlaceholders hbind).executeNodes profiling
      (mem_zipIdx_nodes graph) .empty).1
    rw [hexecute] at hlast
    exact ⟨last, by rw [hrun], hlast⟩
  · have hlast := ((hfitted.of_bindPlaceholders hbind).executeNodes profiling
      (mem_zipIdx_nodes graph) .empty).1
    rw [hexecute] at hlast
    exact ⟨last, by rw [hrun], hlast⟩

theorem afterRuns_prepare (graph : VerifiedGraph) (profiling : Bool)
    (earlier : List Bindings) :
    ∃ buffers, (prepare graph profiling).afterRuns earlier = ⟨graph, profiling, buffers⟩ ∧
      Fitted graph buffers := by
  have hruns (engine : Engine) (hengine : ∃ buffers, engine = ⟨graph, profiling, buffers⟩ ∧
      Fitted graph buffers) :
      ∃ buffers, engine.afterRuns earlier = ⟨graph, profiling, buffers⟩ ∧
        Fitted graph buffers := by
    induction earlier generalizing engine with
    | nil => exact hengine
    | cons bindings earlier ih =>
        obtain ⟨buffers, rfl, hfitted⟩ := hengine
        exact ih _ (hfitted.run bindings)
  exact hruns _ ⟨_, rfl, prepared_fitted graph profiling⟩

/-- The output variables are read with their types. -/
theorem Fitted.readOutputs (hfitted : Fitted graph buffers) :
    List.Forall₂ (fun (output : String × Tensor) (target : Nat × Node) =>
        output.1 = target.2.name ∧ target.2.kind = .variable .output output.2.type)
      (Engine.readOutputs graph buffers) graph.outputs := by
  have hread : ∀ target ∈ graph.outputs, ∃ tensor,
      buffers[target.1]?.bind Buffer.tensor? = some tensor ∧
        target.2.kind = .variable .output tensor.type := by
    rintro ⟨position, node⟩ hmem
    obtain ⟨hnode, houtput⟩ := VerifiedGraph.mem_outputs_iff.mp hmem
    obtain ⟨type, hkind⟩ := Node.isOutput_iff.mp houtput
    have hresults := graph.results_of_variable hnode hkind
    obtain ⟨buffer, hbuffer, hfits⟩ := hfitted.exists_buffer hnode
    have hconstant : node.constant? = none := by simp [Node.constant?, Node.role?, hkind]
    obtain ⟨tensor, rfl, rfl⟩ := (Buffer.fits_iff_of_result hconstant hresults).mp hfits
    exact ⟨tensor, by simp only [hbuffer, Option.bind_some, Buffer.tensor?], hkind⟩
  unfold Engine.readOutputs
  generalize graph.outputs = outputs at hread ⊢
  induction outputs with
  | nil => exact .nil
  | cons target outputs ih =>
      rw [List.forall_mem_cons] at hread
      obtain ⟨⟨tensor, htensor, hkind⟩, hrest⟩ := hread
      simp only [List.filterMap_cons, htensor, Option.map_some]
      exact .cons ⟨rfl, hkind⟩ (ih hrest)

/-- What a successful run returns, also on a graph with windows past an edge. -/
theorem Fitted.run_eq_ok (hfitted : Fitted graph buffers) {bindings : Bindings}
    {output : RunOutput} (hrun : (Engine.run ⟨graph, profiling, buffers⟩ bindings).1 = .ok output) :
    (∀ placeholder ∈ graph.placeholders, bindings.Supplies placeholder.2) ∧
      output.metrics = graph.graph.account profiling graph.graph.executedNodes .empty ∧
      List.Forall₂ (fun (output : String × Tensor) (target : Nat × Node) =>
          output.1 = target.2.name ∧ target.2.kind = .variable .output output.2.type)
        output.outputs graph.outputs := by
  rcases run_cases graph profiling buffers bindings with
    ⟨error, bound, -, heq⟩ | ⟨bound, hbind, ⟨error, last, -, heq⟩ |
      ⟨metrics, last, hexecute, heq⟩⟩
  · rw [heq] at hrun
    cases hrun
  · rw [heq] at hrun
    cases hrun
  · rw [heq] at hrun
    obtain rfl := Except.ok.inj hrun
    obtain ⟨hlast, haccount⟩ := (hfitted.of_bindPlaceholders hbind).executeNodes profiling
      (mem_zipIdx_nodes graph) .empty
    rw [hexecute, List.zipIdx_map_fst] at haccount
    rw [hexecute] at hlast
    exact ⟨bindPlaceholders_eq_ok_iff.mp (congrArg Prod.fst hbind), haccount metrics rfl,
      hlast.readOutputs⟩

/-- What a refused run complains about. -/
theorem Fitted.run_eq_error (hfitted : Fitted graph buffers)
    (hedge : graph.graph.PoolsWithinEdge) {bindings : Bindings} {error : RunError}
    (hrun : (Engine.run ⟨graph, profiling, buffers⟩ bindings).1 = .error error) :
    ∃ before placeholder after detail,
      graph.placeholders = before ++ placeholder :: after ∧
      (∀ earlier ∈ before, bindings.Supplies earlier.2) ∧ ¬bindings.Supplies placeholder.2 ∧
      error = .binding placeholder.2.name detail := by
  rcases run_cases graph profiling buffers bindings with
    ⟨cause, bound, hbind, heq⟩ | ⟨bound, hbind, ⟨cause, last, hexecute, heq⟩ |
      ⟨metrics, last, -, heq⟩⟩
  · rw [heq] at hrun
    obtain rfl := Except.error.inj hrun
    exact bindPlaceholders_eq_error (congrArg Prod.fst hbind)
  · obtain ⟨done, hdone⟩ := (hfitted.of_bindPlaceholders hbind).exists_executeNodes hedge
      profiling (mem_zipIdx_nodes graph) .empty
    rw [hexecute] at hdone
    cases hdone
  · rw [heq] at hrun
    cases hrun

/-- A run is refused only for its bindings. -/
theorem Fitted.exists_run_eq_ok_iff (hfitted : Fitted graph buffers)
    (hedge : graph.graph.PoolsWithinEdge) {bindings : Bindings} :
    (∃ output, (Engine.run ⟨graph, profiling, buffers⟩ bindings).1 = .ok output) ↔
      ∀ placeholder ∈ graph.placeholders, bindings.Supplies placeholder.2 := by
  constructor
  · rintro ⟨output, hrun⟩
    exact (hfitted.run_eq_ok hrun).1
  · intro hsupplied
    cases hrun : (Engine.run ⟨graph, profiling, buffers⟩ bindings).1 with
    | ok output => exact ⟨output, rfl⟩
    | error error =>
        obtain ⟨before, placeholder, after, detail, hsplit, -, hmissing, -⟩ :=
          hfitted.run_eq_error hedge hrun
        exact absurd (hsupplied placeholder (by simp [hsplit])) hmissing

end

end Engine

/-- A pooled input, saved. -/
def pooledGraph : Graph where
  name := "pooled"
  nodes := #[
    ⟨"x", .variable .placeholder ⟨.f32, ⟨[1, 1, 2, 2]⟩⟩, [⟨.f32, ⟨[1, 1, 2, 2]⟩⟩]⟩,
    ⟨"pool", .pooling (.first 0) ⟨.max, ⟨.square 2, .square 1, ⟨0, 0, 0, 0⟩⟩⟩,
      [⟨.f32, ⟨[1, 1, 1, 1]⟩⟩]⟩,
    ⟨"y", .variable .output ⟨.f32, ⟨[1, 1, 1, 1]⟩⟩, [⟨.f32, ⟨[1, 1, 1, 1]⟩⟩]⟩,
    ⟨"save_y", .save (.first 1) 2, []⟩]

theorem check_pooledGraph : pooledGraph.check = .ok () := by cbv

theorem pooledGraph_withinEdge : pooledGraph.PoolsWithinEdge := by
  intro node hnode input pool type hkind htype
  simp [pooledGraph] at hnode
  rcases hnode with rfl | rfl | rfl | rfl <;> cases hkind
  obtain rfl : ⟨.f32, ⟨[1, 1, 2, 2]⟩⟩ = type := Except.ok.inj htype
  intro output width columns hshape hwidth hcolumns column hcolumn
  obtain rfl : ⟨[1, 1, 1, 1]⟩ = output := Except.ok.inj hshape
  obtain rfl : 1 = columns := Option.some.inj hcolumns
  simp [Nat.lt_one_iff.mp hcolumn]

end NetImport
