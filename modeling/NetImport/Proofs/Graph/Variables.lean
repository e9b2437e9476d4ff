import NetImport.Proofs.Graph.Growth
import NetImport.Proofs.Refusals
import Mathlib.Data.List.Nodup

/-!
# Inputs and outputs of a growing graph

The placeholders of a graph, and its output variables, are listed in order of creation.
A node that is appended adds to these lists what it is, and leaves them alone otherwise.
-/

namespace NetImport

namespace Node

theorem isPlaceholder_iff {node : Node} :
    node.isPlaceholder ↔ ∃ type, node.kind = .variable .placeholder type := by
  cases hkind : node.kind <;> simp [isPlaceholder, role?, hkind]
  next role type => cases role <;> simp

theorem isOutput_iff {node : Node} :
    node.isOutput ↔ ∃ type, node.kind = .variable .output type := by
  cases hkind : node.kind <;> simp [isOutput, role?, hkind]
  next role type => cases role <;> simp

end Node

/-- A refusal for another cause than the name of a variable. -/
def GraphError.NoDuplicate : GraphError → Prop
  | .duplicateName _ => False
  | _ => True

namespace Graph

variable {graph next : Graph} {name : String} {kind : NodeKind} {value : Handle}

/-- The placeholders with their positions. -/
def placeholderNodes (graph : Graph) : List (Nat × Node) :=
  graph.variableNodes.filter fun (_, node) => node.isPlaceholder

/-- The output variables with their positions. -/
def outputNodes (graph : Graph) : List (Nat × Node) :=
  graph.variableNodes.filter fun (_, node) => node.isOutput

theorem mem_variableNodes_iff {position : Nat} {node : Node} :
    (position, node) ∈ graph.variableNodes ↔
      graph.nodes[position]? = some node ∧ node.isVariable := by
  simp only [variableNodes, List.mem_filter, List.mem_map, Prod.mk.injEq, Prod.exists]
  constructor
  · rintro ⟨⟨other, index, hmem, rfl, rfl⟩, hvariable⟩
    exact ⟨mem_zipIdx_iff.mp hmem, hvariable⟩
  · rintro ⟨hnode, hvariable⟩
    exact ⟨⟨node, position, mem_zipIdx_iff.mpr hnode, rfl, rfl⟩, hvariable⟩

theorem mem_placeholderNodes_iff {position : Nat} {node : Node} :
    (position, node) ∈ graph.placeholderNodes ↔
      graph.nodes[position]? = some node ∧ node.isPlaceholder := by
  simp only [placeholderNodes, List.mem_filter, mem_variableNodes_iff]
  constructor
  · rintro ⟨⟨hnode, -⟩, hplaceholder⟩
    exact ⟨hnode, hplaceholder⟩
  · rintro ⟨hnode, hplaceholder⟩
    obtain ⟨type, hkind⟩ := Node.isPlaceholder_iff.mp hplaceholder
    exact ⟨⟨hnode, by rw [Node.isVariable, hkind]; rfl⟩, hplaceholder⟩

theorem mem_outputNodes_iff {position : Nat} {node : Node} :
    (position, node) ∈ graph.outputNodes ↔
      graph.nodes[position]? = some node ∧ node.isOutput := by
  simp only [outputNodes, List.mem_filter, mem_variableNodes_iff]
  constructor
  · rintro ⟨⟨hnode, -⟩, houtput⟩
    exact ⟨hnode, houtput⟩
  · rintro ⟨hnode, houtput⟩
    obtain ⟨type, hkind⟩ := Node.isOutput_iff.mp houtput
    exact ⟨⟨hnode, by rw [Node.isVariable, hkind]; rfl⟩, houtput⟩

theorem variableNodes_append (happend : graph.append name kind = .ok (next, value)) :
    ∃ results, next.variableNodes = graph.variableNodes ++
      if kind.isVariable then [(graph.nodes.size, ⟨name, kind, results⟩)] else [] := by
  obtain ⟨results, -, -, rfl, -⟩ := append_eq_ok_iff.mp happend
  refine ⟨results, ?_⟩
  simp only [variableNodes, Array.toList_push, List.zipIdx_append, List.map_append,
    List.filter_append, Array.length_toList, Nat.zero_add]
  cases hvariable : kind.isVariable <;> simp [Node.isVariable, hvariable]

/-- A node that is neither an input nor an output leaves both lists alone. -/
theorem variables_of_append_alone (happend : graph.append name kind = .ok (next, value))
    (hkind : kind.StandsAlone) (hplaceholder : ∀ type, kind ≠ .variable .placeholder type) :
    next.placeholderNodes = graph.placeholderNodes ∧ next.outputNodes = graph.outputNodes := by
  obtain ⟨results, hnodes⟩ := variableNodes_append happend
  have hnotPlaceholder : (⟨name, kind, results⟩ : Node).isPlaceholder = false := by
    rw [← Bool.not_eq_true, Node.isPlaceholder_iff]
    rintro ⟨type, htype⟩
    exact hplaceholder type htype
  have hnotOutput : (⟨name, kind, results⟩ : Node).isOutput = false := by
    rw [← Bool.not_eq_true, Node.isOutput_iff]
    rintro ⟨type, htype⟩
    exact hkind.1 type htype
  rw [placeholderNodes, outputNodes, hnodes, List.filter_append, List.filter_append]
  cases kind.isVariable <;> simp [placeholderNodes, outputNodes, hnotPlaceholder, hnotOutput]

theorem variables_of_placeholder {type : TensorType}
    (happend : graph.placeholder name type = .ok (next, value)) :
    (∃ results, next.placeholderNodes = graph.placeholderNodes ++
      [(graph.nodes.size, ⟨name, .variable .placeholder type, results⟩)]) ∧
      next.outputNodes = graph.outputNodes := by
  obtain ⟨results, hnodes⟩ := variableNodes_append happend
  simp only [NodeKind.isVariable, if_true] at hnodes
  refine ⟨⟨results, ?_⟩, ?_⟩
  · rw [placeholderNodes, hnodes, List.filter_append]
    rfl
  · rw [outputNodes, hnodes, List.filter_append]
    exact List.append_nil _

theorem variables_of_saveInPlace {input output : Handle}
    (hsave : graph.saveInPlace name input = (.ok output, next)) :
    next.placeholderNodes = graph.placeholderNodes ∧
      output = .first graph.nodes.size ∧
      ∃ type results, next.outputNodes = graph.outputNodes ++
        [(graph.nodes.size, ⟨name, .variable .output type, results⟩)] := by
  rcases graph.saveInPlace_cases name input with
    ⟨error, hrefused⟩ | ⟨type, withVariable, variable', last, saved, -, hvariable, hsaved, heq⟩
  · rw [hrefused] at hsave
    cases hsave
  · rw [heq] at hsave
    obtain ⟨houtput, rfl⟩ := Prod.mk.inj hsave
    obtain rfl := Except.ok.inj houtput
    obtain ⟨results, hnodes⟩ := variableNodes_append hvariable
    obtain ⟨saveResults, hsaveNodes⟩ := variableNodes_append hsaved
    obtain ⟨-, -, -, -, rfl⟩ := append_eq_ok_iff.mp hvariable
    simp only [NodeKind.isVariable, if_true] at hnodes
    simp only [NodeKind.isVariable, Bool.false_eq_true, if_false, List.append_nil, hnodes]
      at hsaveNodes
    refine ⟨?_, rfl, type, results, ?_⟩
    · rw [placeholderNodes, hsaveNodes, List.filter_append]
      exact List.append_nil _
    · rw [outputNodes, hsaveNodes, List.filter_append]
      rfl

/-- Variables have names of their own. -/
theorem WellBuilt.nodup_variable_names (hbuilt : graph.WellBuilt) :
    (graph.variableNodes.map fun (_, node) => node.name).Nodup := by
  have hnodup : graph.variableNodes.Nodup := by
    refine List.Nodup.filter _ (List.Nodup.of_map Prod.fst ?_)
    rw [List.map_map]
    exact (List.zipIdx_map_snd 0 graph.nodes.toList).symm ▸ List.nodup_range'
  refine hnodup.map_on ?_
  rintro ⟨i, m⟩ hm ⟨j, n⟩ hn hname
  obtain ⟨hmNode, hmVariable⟩ := mem_variableNodes_iff.mp hm
  obtain ⟨hnNode, hnVariable⟩ := mem_variableNodes_iff.mp hn
  obtain rfl := hbuilt.distinctNames hmNode hnNode hmVariable hnVariable hname
  obtain rfl : m = n := Option.some.inj (hmNode.symm.trans hnNode)
  rfl

theorem WellBuilt.nodup_placeholder_names (hbuilt : graph.WellBuilt) :
    (graph.placeholderNodes.map fun (_, node) => node.name).Nodup :=
  hbuilt.nodup_variable_names.sublist (List.filter_sublist.map _)

/-! ## Names that are taken -/

/-- The names of all variables, in order of creation. -/
def variableNames (graph : Graph) : List String :=
  (graph.nodes.toList.filter Node.isVariable).map Node.name

theorem mem_variableNames_iff :
    name ∈ graph.variableNames ↔ ∃ node ∈ graph.nodes, node.isVariable ∧ node.name = name := by
  simp [variableNames, and_assoc]

theorem map_name_variableNodes :
    (graph.variableNodes.map fun (_, node) => node.name) = graph.variableNames := by
  rw [variableNodes, List.filter_map, List.map_map, variableNames,
    show graph.nodes.toList.filter Node.isVariable =
      (graph.nodes.toList.zipIdx.map Prod.fst).filter Node.isVariable by
        rw [List.zipIdx_map_fst],
    List.filter_map, List.map_map]
  rfl

theorem WellBuilt.nodup_variableNames (hbuilt : graph.WellBuilt) : graph.variableNames.Nodup :=
  map_name_variableNodes ▸ hbuilt.nodup_variable_names

theorem operand_noDuplicate (input : Handle) :
    RefusesOnly GraphError.NoDuplicate (graph.valueType input) := by
  unfold valueType Typing.operand
  split
  · exact refusesOnly_error trivial
  · split
    · exact refusesOnly_error trivial
    · exact refusesOnly_ok _

theorem variable_noDuplicate (role : VariableRole) (type : TensorType) :
    RefusesOnly GraphError.NoDuplicate (Typing.infer (.variable role type) graph.nodes) := by
  refine refusesOnly_map ?_ _
  unfold Typing.variableType
  split
  · exact refusesOnly_ite (fun _ => refusesOnly_ok _) fun _ => refusesOnly_error trivial
  · exact refusesOnly_ok _

theorem save_noDuplicate (input : Handle) (output : Nat) :
    RefusesOnly GraphError.NoDuplicate (Typing.infer (.save input output) graph.nodes) := by
  refine refusesOnly_bind (operand_noDuplicate input) fun x _ => refusesOnly_map ?_ _
  unfold Typing.checkSave
  split
  · exact refusesOnly_error trivial
  · split
    · refine refusesOnly_bind ?_ fun _ _ => ?_
      · exact refusesOnly_ite (fun _ => refusesOnly_ok _) fun _ => refusesOnly_error trivial
      · exact refusesOnly_ite (fun _ => refusesOnly_ok _) fun _ => refusesOnly_error trivial
    · exact refusesOnly_error trivial

/-- A node whose typing is not to blame is refused for its own name, when it is a variable and
another one has that name. -/
theorem taken_of_append {other : String}
    (hinfer : RefusesOnly GraphError.NoDuplicate (Typing.infer kind graph.nodes))
    (hrefused : graph.append name kind = .error (.duplicateName other)) :
    kind.isVariable ∧ other = name ∧ name ∈ graph.variableNames := by
  unfold append at hrefused
  cases hresults : Typing.infer kind graph.nodes with
  | error error =>
      rw [hresults] at hrefused
      obtain rfl := Except.error.inj hrefused
      exact (hinfer.holds hresults).elim
  | ok results =>
      rw [hresults, ok_bind] at hrefused
      split at hrefused
      · next htaken =>
          rw [Bool.and_eq_true, Option.isSome_iff_ne_none] at htaken
          refine ⟨htaken.1, (GraphError.duplicateName.inj (Except.error.inj hrefused)).symm, ?_⟩
          by_contra hfree
          rw [mem_variableNames_iff] at hfree
          push Not at hfree
          exact htaken.2 (findVariable?_eq_none_iff.mpr hfree)
      · cases hrefused

theorem taken_of_saveInPlace {input : Handle} {other : String}
    (hrefused : graph.saveInPlace name input = (.error (.duplicateName other), next)) :
    other = name ∧ name ∈ graph.variableNames := by
  unfold saveInPlace at hrefused
  split at hrefused
  · next error herror =>
      obtain rfl := Except.error.inj (Prod.mk.inj hrefused).1
      exact ((operand_noDuplicate input).holds herror).elim
  · split at hrefused
    · next error herror =>
        obtain rfl := Except.error.inj (Prod.mk.inj hrefused).1
        exact (taken_of_append (variable_noDuplicate ..) herror).2
    · split at hrefused
      · next error herror =>
          obtain rfl := Except.error.inj (Prod.mk.inj hrefused).1
          exact absurd (taken_of_append (save_noDuplicate ..) herror).1 nofun
      · cases (Prod.mk.inj hrefused).1

end Graph
end NetImport
