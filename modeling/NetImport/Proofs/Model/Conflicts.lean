import NetImport.Proofs.Graph.Variables
import NetImport.Proofs.Model.Layout

/-!
# Names that are taken

An import binds the names of its inputs, its weights and the outputs of its operators, and it
names its variables after them.  A constant for a second output has an inner name, which is
made of the label of its operator and the name of the output.  When all names of the nets are
different, an inner name is the only one that can be found to be taken.
-/

namespace NetImport

/-- The inner names of the constants for second outputs, in the order of the operators. -/
def Operator.innerNames (ops : List Operator) : List String :=
  (auxiliaries ops).map fun second => Lowering.nodeName second.1 second.2

theorem Operator.auxiliaries_append (ops ops' : List Operator) :
    auxiliaries (ops ++ ops') = auxiliaries ops ++ auxiliaries ops' :=
  List.flatMap_append

theorem Operator.boundNames_sublist (op : Operator) : op.boundNames.Sublist op.outputs := by
  unfold boundNames auxiliary?
  rcases op.outputs with _ | ⟨first, _ | ⟨second, others⟩⟩ <;> split <;> simp

theorem Operator.auxiliaries_sublist (ops : List Operator) :
    ((auxiliaries ops).map Prod.snd).Sublist (ops.flatMap Operator.outputs) := by
  induction ops with
  | nil => exact .slnil
  | cons op ops ih =>
      have hfirst : op.auxiliary?.toList.Sublist op.outputs :=
        (List.sublist_append_right ..).trans op.boundNames_sublist
      rw [auxiliaries, List.flatMap_cons, List.flatMap_cons, List.map_append, List.map_map]
      refine List.Sublist.append ?_ ih
      simpa [Function.comp_def] using hfirst

namespace Workspace

variable {start work last : Workspace} {nodes : List Node} {bindings : List (String × Handle)}

/-- The names that stand for values. -/
def names (work : Workspace) : List String := work.env.entries.map Prod.fst

theorem Appends.variableNames_eq (happends : start.Appends last nodes bindings) :
    last.graph.variableNames =
      start.graph.variableNames ++ (nodes.filter Node.isVariable).map Node.name := by
  rw [Graph.variableNames, happends.nodes_eq, List.filter_append, List.map_append]
  rfl

theorem Appends.names_eq (happends : start.Appends last nodes bindings) :
    last.names = start.names ++ bindings.map Prod.fst := by
  rw [names, happends.entries_eq, List.map_append]
  rfl

/-- Operators name variables after their second outputs only. -/
theorem Lowers.variableNames_eq {ops : List Operator}
    (hlowers : Lowers ops start last nodes bindings) :
    last.graph.variableNames = start.graph.variableNames ++ Operator.innerNames ops := by
  have hnames : ((nodes.zipIdx start.graph.nodes.size).filter
      fun entry => entry.1.isVariable).map (fun entry => entry.1.name) =
        Operator.innerNames ops :=
    (forall₂_view_iff.mp (hlowers.constants.imp fun _ _ hconstant => hconstant.1.symm)).symm
  have hfilter : nodes.filter Node.isVariable =
      ((nodes.zipIdx start.graph.nodes.size).filter fun entry => entry.1.isVariable).map
        Prod.fst := by
    conv_lhs => rw [← List.zipIdx_map_fst start.graph.nodes.size nodes, List.filter_map]
    rfl
  rw [hlowers.appends.variableNames_eq, hfilter, List.map_map, ← hnames]
  rfl

end Workspace

namespace Lowering

variable {op : Operator} {work last : Workspace} {other : String}

/-! ## Steps that bind -/

theorem taken_of_bindName {name : String} {value : Handle}
    (hrun : (bindName name value).run.run work = (.error (.nameConflict other), last)) :
    other = name ∧ name ∈ work.names := by
  rw [run_bindName] at hrun
  unfold Environment.bind at hrun
  split at hrun
  · next error herror =>
      split at herror
      · next hbound =>
          obtain rfl := Except.error.inj herror
          exact ⟨(LoadError.nameConflict.inj (Except.error.inj (Prod.mk.inj hrun).1)).symm, hbound⟩
      · cases herror
  · cases (Prod.mk.inj hrun).1

theorem taken_of_appendVariable {label name : String} {role : VariableRole} {type : TensorType}
    {add : Graph → Except GraphError (Graph × Handle)}
    (hadd : ∀ graph, add graph = graph.append name (.variable role type))
    (hrun : (append (.ofVariableError label) add).run.run work =
      (.error (.nameConflict other), last)) :
    other = name ∧ name ∈ work.graph.variableNames := by
  rw [run_append, hadd] at hrun
  split at hrun
  · next error herror =>
      have hconflict := Except.error.inj (Prod.mk.inj hrun).1
      unfold LoadError.ofVariableError at hconflict
      split at hconflict
      · obtain rfl := LoadError.nameConflict.inj hconflict
        exact (Graph.taken_of_append (Graph.variable_noDuplicate ..) herror).2
      · exact (hconflict ▸ LoadError.noConflict_ofGraphError label error).elim
  · cases (Prod.mk.inj hrun).1

theorem taken_of_addVariable {name : String} {role : VariableRole} {type : TensorType}
    {add : Graph → Except GraphError (Graph × Handle)}
    (hadd : ∀ graph, add graph = graph.append name (.variable role type))
    (hrun : (addVariable name add).run.run work = (.error (.nameConflict other), last)) :
    other = name ∧ (name ∈ work.graph.variableNames ∨ name ∈ work.names) := by
  rcases run_bind_eq_error_iff.mp hrun with happend | ⟨value, next, happend, hbind⟩
  · exact (taken_of_appendVariable hadd happend).imp_right .inl
  · obtain ⟨results, -, happends, -⟩ := appends_of_run_append hadd happend
    have htaken := taken_of_bindName hbind
    rw [Workspace.names, happends.env_eq] at htaken
    exact htaken.imp_right .inr

/-! ## Operators -/

/-- Why an operator is refused for a name that is taken. -/
inductive Conflicts (op : Operator) (work : Workspace) : String → Prop where
  | first {name : String} (hname : op.outputs[0]? = some name) (htaken : name ∈ work.names) :
      Conflicts op work name
  | second {name second : String} (hname : op.outputs[0]? = some name)
      (hsecond : op.outputs[1]? = some second) (htaken : second ∈ work.names ++ [name]) :
      Conflicts op work second
  | inner {second : String} (hsecond : op.auxiliary? = some second)
      (htaken : nodeName op second ∈ work.graph.variableNames) :
      Conflicts op work (nodeName op second)

theorem conflicts_of_bindOutput {value : Handle}
    (hrun : (bindOutput op 0 value).run.run work = (.error (.nameConflict other), last)) :
    Conflicts op work other := by
  unfold bindOutput at hrun
  split at hrun
  · next name hname =>
      obtain ⟨rfl, htaken⟩ := taken_of_bindName hrun
      exact .first hname htaken
  · cases hrun

theorem conflicts_of_finalStep {kind : OperatorKind} {final : Lowering Unit}
    (hkind : OperatorKind.parse? op.kind = some kind) (hfinal : FinalStep op kind final)
    (hrun : final.run.run work = (.error (.nameConflict other), last)) :
    Conflicts op work other := by
  unfold FinalStep at hfinal
  split at hfinal
  · next hauxiliary =>
      have hsecond : op.auxiliary? = op.outputs[1]? := by
        simp [Operator.auxiliary?, hkind, hauxiliary]
      obtain ⟨value, tensor, hread, rfl⟩ := hfinal
      rcases run_bind_eq_error_iff.mp hrun with hfirst | ⟨_, next, hfirst, hrest⟩
      · exact conflicts_of_bindOutput hfirst
      obtain ⟨name, hname, happends⟩ := appends_of_run_bindOutput hfirst
      by_cases hdeclared : 1 < op.outputs.length
      · rw [if_pos hdeclared] at hrest
        have hget : op.outputs[1]? = some op.outputs[1] := List.getElem?_eq_getElem hdeclared
        rcases run_bind_eq_error_iff.mp hrest with hrefused | ⟨constant, middle, htensor, hconstant⟩
        · cases tensor with
          | ok tensor => cases (Prod.mk.inj hrefused).1
          | error error =>
              obtain rfl := Except.error.inj (Prod.mk.inj hrefused).1
              exact (hread.holds rfl).elim
        · obtain ⟨-, rfl⟩ := run_ofExcept_eq_ok_iff.mp htensor
          unfold bindConstantOutput at hconstant
          rw [hget] at hconstant
          rcases run_bind_eq_error_iff.mp hconstant with happend | ⟨constant, _, happend, hbind⟩
          · obtain ⟨rfl, htaken⟩ := taken_of_appendVariable (fun _ => rfl) happend
            rw [happends.graph_eq] at htaken
            exact .inner (hsecond.trans hget) htaken
          · obtain ⟨results, -, hnode, -⟩ := appends_of_run_append (fun _ => rfl) happend
            obtain ⟨rfl, htaken⟩ := taken_of_bindName hbind
            rw [hnode.names_eq, happends.names_eq] at htaken
            refine .second hname hget ?_
            simpa using htaken
      · rw [if_neg hdeclared, run_pure] at hrest
        cases (Prod.mk.inj hrest).1
  · obtain ⟨value, rfl⟩ := hfinal
    exact conflicts_of_bindOutput hrun

theorem Conflicts.of_eq {next : Workspace} (hconflicts : Conflicts op next other)
    (hnames : next.names = work.names)
    (hvariables : next.graph.variableNames = work.graph.variableNames) :
    Conflicts op work other := by
  cases hconflicts with
  | first hname htaken => exact .first hname (hnames ▸ htaken)
  | second hname hsecond htaken => exact .second hname hsecond (hnames ▸ htaken)
  | inner hsecond htaken => exact .inner hsecond (hvariables ▸ htaken)

/-- Only the last step of an operator can find a name taken. -/
theorem conflicts_of_operator
    (hrun : (operator op).run.run work = (.error (.nameConflict other), last)) :
    Conflicts op work other := by
  unfold operator at hrun
  split at hrun
  · cases (Prod.mk.inj hrun).1
  · next kind hkind =>
      obtain ⟨next, hcomputes, ⟨error, hnone, hfailed⟩ | ⟨final, hfinal, hcomes⟩⟩ :=
        (comesTo_ofKind kind op).run_comes work
      · rw [hfailed] at hrun
        obtain rfl := Except.error.inj (Prod.mk.inj hrun).1
        exact hnone.elim
      · rw [hcomes] at hrun
        obtain ⟨nodes, hlowers⟩ := hcomputes.lowers
        refine (conflicts_of_finalStep hkind hfinal hrun).of_eq ?_ ?_
        · rw [hlowers.appends.names_eq, List.map_nil, List.append_nil]
        · rw [hlowers.variableNames_eq]
          exact List.append_nil _

/-! ## Names after some steps -/

/-- Some names have been bound, and some variables named. -/
structure Names (work last : Workspace) (bound named : List String) : Prop where
  names_eq : last.names = work.names ++ bound
  variableNames_eq : last.graph.variableNames = work.graph.variableNames ++ named

theorem Names.trans {middle : Workspace} {bound bound' named named' : List String}
    (hfirst : Names work middle bound named) (hsecond : Names middle last bound' named') :
    Names work last (bound ++ bound') (named ++ named') where
  names_eq := by rw [hsecond.names_eq, hfirst.names_eq, List.append_assoc]
  variableNames_eq := by
    rw [hsecond.variableNames_eq, hfirst.variableNames_eq, List.append_assoc]

theorem map_fst_handlesFrom (position : Nat) (names : List String) :
    (handlesFrom position names).map Prod.fst = names := by
  rw [handlesFrom, List.map_map]
  exact List.zipIdx_map_fst position names

/-- Variables that are bound to their names. -/
theorem names_of_appends {α : Type} {entries : List α} {node : α → Node} {name : α → String}
    {position : Nat}
    (happends : work.Appends last (entries.map node) (handlesFrom position (entries.map name)))
    (hnode : ∀ entry, (node entry).isVariable ∧ (node entry).name = name entry) :
    Names work last (entries.map name) (entries.map name) where
  names_eq := by rw [happends.names_eq, map_fst_handlesFrom]
  variableNames_eq := by
    have hall : (entries.map node).filter Node.isVariable = entries.map node :=
      List.filter_eq_self.mpr <| List.forall_mem_map.mpr fun entry _ => (hnode entry).1
    rw [happends.variableNames_eq, hall, List.map_map]
    exact congrArg _ (List.map_congr_left fun entry _ => (hnode entry).2)

theorem names_of_run_inputs {weights : WeightTable} {inputs : List (String × TensorType)}
    {result : Unit}
    (hrun : (inputs.forM (addInput weights)).run.run work = (.ok result, last)) :
    Names work last (inputs.map Prod.fst) (inputs.map Prod.fst) :=
  names_of_appends (appends_of_run_forM appends_of_run_addInput hrun) fun _ => ⟨rfl, rfl⟩

theorem names_of_run_weights {entries : List (String × Tensor)} {result : Unit}
    (hrun : (entries.forM addWeight).run.run work = (.ok result, last)) :
    Names work last (entries.map Prod.fst) (entries.map Prod.fst) :=
  names_of_appends (appends_of_run_forM appends_of_run_addWeight hrun) fun _ => ⟨rfl, rfl⟩

theorem names_of_run_operators {ops : List Operator} {result : Unit}
    (hrun : (ops.forM operator).run.run work = (.ok result, last)) :
    Names work last (ops.flatMap Operator.boundNames) (Operator.innerNames ops) := by
  obtain ⟨nodes, bindings, hlowers⟩ := lowers_of_run_operators hrun
  exact ⟨by rw [hlowers.appends.names_eq, hlowers.boundNames], hlowers.variableNames_eq⟩

theorem variableNames_nodesFrom (position : Nat) (saved : List SavedOutput) :
    ((SavedOutput.nodesFrom position saved).filter Node.isVariable).map Node.name =
      saved.map SavedOutput.name := by
  induction saved generalizing position with
  | nil => rfl
  | cons output saved ih =>
      rw [SavedOutput.nodesFrom, List.filter_cons_of_pos rfl, List.filter_cons_of_neg Bool.false_ne_true,
        List.map_cons, ih, List.map_cons]

theorem names_of_run_outputs {names : List String} {entries : List (String × Handle)}
    (hrun : (names.mapM addOutput).run.run work = (.ok entries, last)) :
    Names work last [] names := by
  obtain ⟨saved, hnames, -, -, hsaves⟩ := saves_of_run_addOutputs hrun
  exact ⟨hsaves.names_eq, by rw [hsaves.variableNames_eq, variableNames_nodesFrom, hnames]⟩

/-! ## Steps of an import -/

theorem not_mem_of_nodup {α : Type} {front before after : List α} {x : α}
    (hdistinct : (front ++ (before ++ x :: after)).Nodup) : x ∉ front ++ before := by
  rw [← List.append_assoc, List.nodup_append] at hdistinct
  exact fun hmem => hdistinct.2.2 x hmem x (List.mem_cons_self ..) rfl

theorem inputs_not_taken {weights : WeightTable} {inputs : List (String × TensorType)}
    (hfree : ∀ input ∈ inputs, input.1 ∉ weights.entries.map Prod.fst)
    (hvariables : work.graph.variableNames = work.names)
    (hdistinct : (work.names ++ inputs.map Prod.fst).Nodup) :
    (inputs.forM (addInput weights)).run.run work ≠ (.error (.nameConflict other), last) := by
  intro hrun
  obtain ⟨before, input, after, middle, rfl, hbefore, hinput⟩ := run_forM_eq_error hrun
  have hmiddle := names_of_run_inputs hbefore
  rw [List.map_append, List.map_cons] at hdistinct
  have hother := not_mem_of_nodup hdistinct
  have hweight : ¬weights.contains input.1 := by
    simpa [WeightTable.contains] using hfree input (by simp)
  unfold addInput at hinput
  rw [if_neg hweight] at hinput
  obtain ⟨-, htaken⟩ := taken_of_addVariable (fun _ => rfl) hinput
  rw [hmiddle.variableNames_eq, hmiddle.names_eq, hvariables, or_self] at htaken
  exact hother htaken

theorem weights_not_taken {entries : List (String × Tensor)}
    (hvariables : work.graph.variableNames = work.names)
    (hdistinct : (work.names ++ entries.map Prod.fst).Nodup) :
    (entries.forM addWeight).run.run work ≠ (.error (.nameConflict other), last) := by
  intro hrun
  obtain ⟨before, entry, after, middle, rfl, hbefore, hentry⟩ := run_forM_eq_error hrun
  have hmiddle := names_of_run_weights hbefore
  rw [List.map_append, List.map_cons] at hdistinct
  have hother := not_mem_of_nodup hdistinct
  obtain ⟨-, htaken⟩ := taken_of_addVariable (fun _ => rfl) hentry
  rw [hmiddle.variableNames_eq, hmiddle.names_eq, hvariables, or_self] at htaken
  exact hother htaken

/-- An inner name among some names, or among the inner names before it. -/
def InnerCollision (ops : List Operator) (given : List String) (name : String) : Prop :=
  ∃ earlier second later, Operator.auxiliaries ops = earlier ++ second :: later ∧
    name = nodeName second.1 second.2 ∧
    name ∈ given ++ earlier.map fun second => nodeName second.1 second.2

theorem InnerCollision.mono {ops : List Operator} {given given' : List String}
    (hcollision : InnerCollision ops given other) (hgiven : given ⊆ given') :
    InnerCollision ops given' other := by
  obtain ⟨earlier, second, later, hsplit, hname, htaken⟩ := hcollision
  refine ⟨earlier, second, later, hsplit, hname, ?_⟩
  exact List.mem_append.mpr ((List.mem_append.mp htaken).imp_left fun hmem => hgiven hmem)

theorem collision_of_run_operators {ops : List Operator}
    (hdistinct : (work.names ++ ops.flatMap Operator.outputs).Nodup)
    (hrun : (ops.forM operator).run.run work = (.error (.nameConflict other), last)) :
    InnerCollision ops work.graph.variableNames other := by
  obtain ⟨before, op, after, middle, rfl, hbefore, hop⟩ := run_forM_eq_error hrun
  have hmiddle := names_of_run_operators hbefore
  have hbound : before.flatMap Operator.boundNames ⊆ before.flatMap Operator.outputs := by
    intro name hname
    obtain ⟨earlier, hearlier, hmem⟩ := List.mem_flatMap.mp hname
    exact List.mem_flatMap.mpr ⟨earlier, hearlier, earlier.boundNames_sublist.subset hmem⟩
  have hnames : middle.names ⊆ work.names ++ before.flatMap Operator.outputs := by
    intro name hname
    rw [hmiddle.names_eq] at hname
    exact List.mem_append.mpr ((List.mem_append.mp hname).imp_right fun hmem => hbound hmem)
  rw [List.flatMap_append, List.flatMap_cons, ← List.append_assoc] at hdistinct
  cases conflicts_of_operator hop with
  | first hname htaken =>
      have hoff := List.nodup_append.mp hdistinct
      refine absurd rfl (hoff.2.2 other (hnames htaken) other ?_)
      exact List.mem_append_left _ (List.mem_of_getElem? hname)
  | @second name _ hname hsecond htaken =>
      have hoff := List.nodup_append.mp hdistinct
      rcases List.mem_append.mp htaken with hearlier | hown
      · refine absurd rfl (hoff.2.2 other (hnames hearlier) other ?_)
        exact List.mem_append_left _ (List.mem_of_getElem? hsecond)
      · obtain rfl := List.mem_singleton.mp hown
        have houtputs : op.outputs.Nodup := (List.nodup_append.mp hoff.2.1).1
        obtain ⟨hzero, hfirst⟩ := List.getElem?_eq_some_iff.mp hname
        obtain ⟨hone, hlast⟩ := List.getElem?_eq_some_iff.mp hsecond
        exact absurd (houtputs.getElem_inj_iff.mp (hfirst.trans hlast.symm)) (by decide)
  | @inner second hsecond htaken =>
      refine ⟨Operator.auxiliaries before, (op, second), Operator.auxiliaries after, ?_, rfl, ?_⟩
      · rw [Operator.auxiliaries_append]
        simp [Operator.auxiliaries, hsecond]
      · rw [hmiddle.variableNames_eq] at htaken
        exact htaken

theorem taken_of_run_outputs {names : List String} (hdistinct : names.Nodup)
    (hrun : (names.mapM addOutput).run.run work = (.error (.nameConflict other), last)) :
    other ∈ names ∧ other ∈ work.graph.variableNames := by
  obtain ⟨before, name, after, entries, middle, rfl, hbefore, hname⟩ := run_mapM_eq_error hrun
  have hmiddle := names_of_run_outputs hbefore
  rcases run_bind_eq_error_iff.mp hname with hresolve | ⟨value, next, hresolve, hsave⟩
  · have hnone := (computes_resolve importLabel name).refuses middle
    rw [hresolve] at hnone
    exact (hnone.holds rfl).elim
  · obtain ⟨_, _, hget, hvalue⟩ := run_bind_eq_ok_iff.mp hresolve
    obtain ⟨-, rfl⟩ := Prod.mk.inj hget
    obtain ⟨-, rfl⟩ := run_ofExcept_eq_ok_iff.mp hvalue
    rw [run_bind, run_get] at hsave
    dsimp only at hsave
    rcases hsaved : next.graph.saveInPlace name value with ⟨error | output, graph⟩ <;>
      rw [hsaved] at hsave
    · have hconflict : LoadError.ofVariableError importLabel error = .nameConflict other :=
        Except.error.inj (Prod.mk.inj hsave).1
      unfold LoadError.ofVariableError at hconflict
      split at hconflict
      · obtain rfl := LoadError.nameConflict.inj hconflict
        obtain ⟨rfl, htaken⟩ := Graph.taken_of_saveInPlace hsaved
        rw [hmiddle.variableNames_eq] at htaken
        refine ⟨by simp, (List.mem_append.mp htaken).resolve_right fun hearlier => ?_⟩
        exact (List.nodup_append.mp hdistinct).2.2 _ hearlier _ (List.mem_cons_self ..) rfl
      · exact (hconflict ▸ LoadError.noConflict_ofGraphError importLabel _).elim
    · cases (Prod.mk.inj hsave).1

end Lowering

/-- Two nets and the names of a caller that are all different.  An output of the predict net may
be saved under the name that an operator gives it. -/
structure DistinctNames (predict init : NetDefinition) (names : List String) : Prop where
  bound : (names ++ init.operators.flatMap Operator.outputs ++
    predict.operators.flatMap Operator.outputs).Nodup
  saved : predict.externalOutputs.Nodup
  saved_free : ∀ name ∈ predict.externalOutputs,
    name ∉ names ++ init.operators.flatMap Operator.outputs

/-- All names that an import gives to variables, besides inner names. -/
def givenNames (predict init : NetDefinition) (names : List String) : List String :=
  names ++ init.operators.flatMap Operator.outputs ++ predict.externalOutputs

namespace Lowering

variable {predict init : NetDefinition} {names : List String} {other : String}

theorem weights_not_conflicting (hdistinct : (init.operators.flatMap Operator.outputs).Nodup) :
    WeightTable.ofNet init ≠ .error (.nameConflict other) := by
  intro hrefused
  obtain ⟨before, op, after, hsplit, -, -, hrefuses⟩ := WeightTable.ofNet_eq_error_iff.mp hrefused
  rw [hsplit, List.flatMap_append, List.flatMap_cons] at hdistinct
  cases hrefuses with
  | tensor htensor => exact (Fill.tensor_nameless op).holds htensor
  | @bound weight hyields hbound =>
      have hdisjoint := (List.nodup_append.mp hdistinct).2.2
      exact hdisjoint _ hbound weight.1 (by simp [hyields.outputs]) rfl

theorem collision_of_run_model {inputs : List (String × TensorType)} {graphName : String}
    {last : Workspace} (hdistinct : DistinctNames predict init (inputs.map Prod.fst))
    (hrun : (model predict init inputs).run.run ⟨.empty graphName, .empty⟩ =
      (.error (.nameConflict other), last)) :
    InnerCollision predict.operators (givenNames predict init (inputs.map Prod.fst)) other := by
  obtain ⟨hbound, hsaved, hfree⟩ := hdistinct
  rcases run_bind_eq_error_iff.mp hrun with htable | ⟨weights, _, htable, hrun⟩
  · rcases hweights : WeightTable.ofNet init with error | table <;> rw [hweights] at htable
    · obtain rfl := Except.error.inj (Prod.mk.inj htable).1
      have hfills := (List.nodup_append.mp (List.nodup_append.mp hbound).1).2.1
      exact absurd hweights (weights_not_conflicting hfills)
    · cases (Prod.mk.inj htable).1
  obtain ⟨hweights, rfl⟩ := run_ofExcept_eq_ok_iff.mp htable
  have hfills := Fill.outputs_of_forall₂_yields (WeightTable.ofNet_eq_ok_iff.mp hweights)
  rw [givenNames]
  rw [hfills] at hbound hfree ⊢
  have hgiven := (List.nodup_append.mp hbound).1
  rcases run_bind_eq_error_iff.mp hrun with hinputs | ⟨_, afterInputs, hinputs, hrun⟩
  · refine absurd hinputs (inputs_not_taken ?_ rfl (List.nodup_append.mp hgiven).1)
    intro input hinput hweight
    exact (List.nodup_append.mp hgiven).2.2 _ (List.mem_map_of_mem hinput) _ hweight rfl
  obtain ⟨hnames, hvariables⟩ := names_of_run_inputs hinputs
  change afterInputs.names = inputs.map Prod.fst at hnames
  change afterInputs.graph.variableNames = inputs.map Prod.fst at hvariables
  rcases run_bind_eq_error_iff.mp hrun with hentries | ⟨_, afterWeights, hentries, hrun⟩
  · exact absurd hentries (weights_not_taken (hvariables.trans hnames.symm) (hnames ▸ hgiven))
  obtain ⟨hnames', hvariables'⟩ := names_of_run_weights hentries
  rw [hnames] at hnames'
  rw [hvariables] at hvariables'
  rcases run_bind_eq_error_iff.mp hrun with hoperators | ⟨_, before, hoperators, hrun⟩
  · refine (collision_of_run_operators (hnames' ▸ hbound) hoperators).mono ?_
    rw [hvariables']
    exact List.subset_append_left ..
  rcases run_bind_eq_error_iff.mp hrun with houtputs | ⟨_, _, -, hpure⟩
  · obtain ⟨hdeclared, htaken⟩ := taken_of_run_outputs hsaved houtputs
    rw [(names_of_run_operators hoperators).variableNames_eq, hvariables'] at htaken
    have hinner := (List.mem_append.mp htaken).resolve_left (hfree other hdeclared)
    obtain ⟨second, hsecond, rfl⟩ := List.mem_map.mp hinner
    obtain ⟨earlier, later, hsplit⟩ := List.append_of_mem hsecond
    refine ⟨earlier, second, later, hsplit, rfl, ?_⟩
    exact List.mem_append_left _ (List.mem_append_right _ hdeclared)
  · cases (Prod.mk.inj hpure).1

/-- The variables of an import that succeeds have names of their own. -/
theorem nodup_of_run_model {inputs : List (String × TensorType)} {graphName : String}
    {last : Workspace} {loaded : LoadedModel}
    (hrun : (model predict init inputs).run.run ⟨.empty graphName, .empty⟩ =
      (.ok loaded, last)) :
    (inputs.map Prod.fst ++ init.operators.flatMap Operator.outputs ++
      Operator.innerNames predict.operators ++ predict.externalOutputs).Nodup := by
  have hbuilt : last.graph.WellBuilt :=
    Graph.Reaches.wellBuilt ((builds_model predict init inputs).of_run_eq hrun)
      (Graph.wellBuilt_empty graphName)
  obtain ⟨weights, _, htable, hrun⟩ := run_bind_eq_ok_iff.mp hrun
  obtain ⟨hweights, rfl⟩ := run_ofExcept_eq_ok_iff.mp htable
  have hfills := Fill.outputs_of_forall₂_yields (WeightTable.ofNet_eq_ok_iff.mp hweights)
  obtain ⟨_, afterInputs, hinputs, hrun⟩ := run_bind_eq_ok_iff.mp hrun
  obtain ⟨_, afterWeights, hentries, hrun⟩ := run_bind_eq_ok_iff.mp hrun
  obtain ⟨_, before, hoperators, hrun⟩ := run_bind_eq_ok_iff.mp hrun
  obtain ⟨outputs, afterOutputs, houtputs, hrun⟩ := run_bind_eq_ok_iff.mp hrun
  obtain rfl := (Prod.mk.inj hrun).2
  have hall := (((names_of_run_inputs hinputs).trans (names_of_run_weights hentries)).trans
    (names_of_run_operators hoperators)).trans (names_of_run_outputs houtputs)
  rw [hfills]
  exact hall.variableNames_eq ▸ hbuilt.nodup_variableNames

/-! ## Names without dots -/

theorem toList_nodeName (op : Operator) (suffix : String) :
    (nodeName op suffix).toList = op.label.toList ++ '.' :: suffix.toList := by
  simp [nodeName, toString_string]

/-- What follows the last dot of a text is determined by the text. -/
theorem eq_of_append_dot {front front' back back' : List Char} (hback : '.' ∉ back)
    (hback' : '.' ∉ back') (hsame : front ++ '.' :: back = front' ++ '.' :: back') :
    back = back' := by
  have hlast (front back : List Char) (hback : '.' ∉ back) :
      (front ++ '.' :: back).reverse.takeWhile (· ≠ '.') = back.reverse := by
    rw [List.reverse_append, List.reverse_cons, List.append_assoc, List.takeWhile_append_of_pos]
    · simp
    · intro c hc
      simpa using fun hdot : c = '.' => hback (hdot ▸ List.mem_reverse.mp hc)
  have hreverse := congrArg (fun text => text.reverse.takeWhile (· ≠ '.')) hsame
  rw [hlast _ _ hback, hlast _ _ hback'] at hreverse
  exact List.reverse_inj.mp hreverse

/-- Inner names collide with nothing when there is no dot in the other names and in the names
of the second outputs, whatever the labels of the operators are. -/
theorem no_collision_of_dotless {ops : List Operator} {given : List String}
    (hdistinct : (ops.flatMap Operator.outputs).Nodup)
    (hgiven : ∀ name ∈ given, '.' ∉ name.toList)
    (hseconds : ∀ second ∈ Operator.auxiliaries ops, '.' ∉ second.2.toList) :
    ¬InnerCollision ops given other := by
  rintro ⟨earlier, second, later, hsplit, rfl, htaken⟩
  rcases List.mem_append.mp htaken with hmem | hmem
  · refine hgiven _ hmem ?_
    rw [toList_nodeName]
    simp
  · obtain ⟨first, hfirst, hsame⟩ := List.mem_map.mp hmem
    have hmemFirst : first ∈ Operator.auxiliaries ops := hsplit ▸ List.mem_append_left _ hfirst
    have hmemSecond : second ∈ Operator.auxiliaries ops := by simp [hsplit]
    have htexts := congrArg String.toList hsame
    rw [toList_nodeName, toList_nodeName] at htexts
    have hnames : first.2 = second.2 :=
      String.toList_inj.mp (eq_of_append_dot (hseconds _ hmemFirst) (hseconds _ hmemSecond) htexts)
    have hnodup := (Operator.auxiliaries_sublist ops).nodup hdistinct
    rw [hsplit, List.map_append, List.map_cons, List.nodup_append] at hnodup
    exact hnodup.2.2 _ (List.mem_map_of_mem hfirst) _ (List.mem_cons_self ..) hnames

end Lowering

/-- An import ends as its steps do, when there is a type for each name. -/
theorem run_model_of_load {predict init : NetDefinition} {names : List String}
    {types : List TensorType} {graph next : Graph} {result : Except LoadError LoadedModel}
    (hresult : ∀ label arg detail, result ≠ .error (.malformedArgument label arg detail))
    (hload : LoadedModel.load predict init names types graph = (result, next)) :
    (names.zip types).map Prod.fst = names ∧ ∃ last,
      (Lowering.model predict init (names.zip types)).run.run ⟨graph, .empty⟩ =
        (result, last) := by
  unfold LoadedModel.load at hload
  by_cases hlength : names.length ≠ types.length
  · rw [if_pos hlength] at hload
    exact absurd (Prod.mk.inj hload).1.symm (hresult _ _ _)
  · rw [if_neg hlength] at hload
    refine ⟨List.map_fst_zip (Nat.le_of_eq (not_ne_iff.mp hlength)), ?_⟩
    dsimp only at hload
    rcases hmodel : (Lowering.model predict init (names.zip types)).run.run ⟨graph, .empty⟩ with
      ⟨error | loaded, last⟩ <;> rw [hmodel] at hload <;>
      exact ⟨last, by rw [(Prod.mk.inj hload).1]⟩

/-- An import of nets whose names are all different is refused for a name only if this is an
inner name and some other variable has it.  It succeeds only if there is no such name, and there
is none when only labels have dots in them. -/
theorem conflicts_are_inner {predict init : NetDefinition} {names : List String}
    {types : List TensorType} {graphName : String}
    (hdistinct : DistinctNames predict init names) :
    (∀ name next, LoadedModel.load predict init names types (.empty graphName) =
        (.error (.nameConflict name), next) →
      Lowering.InnerCollision predict.operators (givenNames predict init names) name) ∧
    (∀ loaded next, LoadedModel.load predict init names types (.empty graphName) =
        (.ok loaded, next) →
      ∀ name, ¬Lowering.InnerCollision predict.operators (givenNames predict init names) name) ∧
    ((∀ name ∈ givenNames predict init names, '.' ∉ name.toList) →
      (∀ second ∈ Operator.auxiliaries predict.operators, '.' ∉ second.2.toList) →
        ∀ name next, LoadedModel.load predict init names types (.empty graphName) ≠
          (.error (.nameConflict name), next)) := by
  have hcollides {name : String} {next : Graph} (hload : LoadedModel.load predict init names types
      (.empty graphName) = (.error (.nameConflict name), next)) :
      Lowering.InnerCollision predict.operators (givenNames predict init names) name := by
    obtain ⟨hnames, last, hrun⟩ := run_model_of_load (fun _ _ _ hother => by cases hother) hload
    rw [← hnames] at hdistinct ⊢
    exact Lowering.collision_of_run_model hdistinct hrun
  refine ⟨fun name next => hcollides, ?_, ?_⟩
  · rintro loaded next hload name ⟨earlier, second, later, hsplit, rfl, htaken⟩
    obtain ⟨hnames, last, hrun⟩ := run_model_of_load (fun _ _ _ hother => by cases hother) hload
    have hnodup := Lowering.nodup_of_run_model hrun
    rw [hnames, Operator.innerNames, hsplit, List.map_append, List.map_cons] at hnodup
    have hfront := Lowering.not_mem_of_nodup (List.nodup_append.mp hnodup).1
    have hsaved : Lowering.nodeName second.1 second.2 ∉ predict.externalOutputs :=
      fun hmem => (List.nodup_append.mp hnodup).2.2 _ (by simp) _ hmem rfl
    simp only [givenNames, List.mem_append, not_or] at htaken hfront
    rcases htaken with (hgiven | hmem) | hearlier
    · exact hgiven.elim hfront.1.1 hfront.1.2
    · exact hsaved hmem
    · exact hfront.2 hearlier
  · intro hgiven hseconds name next hload
    have houtputs := (List.nodup_append.mp hdistinct.bound).2.1
    exact Lowering.no_collision_of_dotless houtputs hgiven hseconds (hcollides hload)

/-- A net that returns a value under the inner name of another one's former extents. -/
def shadowedNet : NetDefinition where
  name := "shadowed"
  operators := [
    ⟨"Reshape", ["x"], ["y", "old_shape"], none,
      ⟨[("shape", .ints [6])], List.pairwise_singleton _ _⟩⟩,
    ⟨"Relu", ["x"], ["y.old_shape"], none, .empty⟩]
  externalInputs := ["x"]
  externalOutputs := ["y.old_shape"]

/-- No weights. -/
def noWeights : NetDefinition := ⟨"weights", [], [], []⟩

theorem distinctNames_shadowedNet : DistinctNames shadowedNet noWeights ["x"] :=
  ⟨by decide, by decide, by decide⟩

theorem load_shadowedNet :
    ∃ next, LoadedModel.load shadowedNet noWeights ["x"] [⟨.f32, ⟨[2, 3]⟩⟩] (.empty "main") =
      (.error (.nameConflict "y.old_shape"), next) := by
  have hrefused : (LoadedModel.load shadowedNet noWeights ["x"] [⟨.f32, ⟨[2, 3]⟩⟩]
      (.empty "main")).1.map (fun _ => ()) = .error (.nameConflict "y.old_shape") := by
    decide +kernel
  rcases hload : LoadedModel.load shadowedNet noWeights ["x"] [⟨.f32, ⟨[2, 3]⟩⟩] (.empty "main")
    with ⟨error | loaded, next⟩ <;> rw [hload] at hrefused
  · exact ⟨next, by rw [Except.error.inj hrefused]⟩
  · cases hrefused

/-- All names of the net are different, and it is still refused for a name. -/
theorem shadowedNet_is_refused :
    DistinctNames shadowedNet noWeights ["x"] ∧
      ∃ next, LoadedModel.load shadowedNet noWeights ["x"] [⟨.f32, ⟨[2, 3]⟩⟩] (.empty "main") =
        (.error (.nameConflict "y.old_shape"), next) :=
  ⟨distinctNames_shadowedNet, load_shadowedNet⟩

/-- The name is the inner name of the former extents, and that of a saved output. -/
theorem shadowedNet_collides :
    DistinctNames shadowedNet noWeights ["x"] ∧
      Lowering.InnerCollision shadowedNet.operators (givenNames shadowedNet noWeights ["x"])
        "y.old_shape" := by
  obtain ⟨next, hload⟩ := load_shadowedNet
  exact ⟨distinctNames_shadowedNet,
    (conflicts_are_inner distinctNames_shadowedNet).1 _ next hload⟩

end NetImport
