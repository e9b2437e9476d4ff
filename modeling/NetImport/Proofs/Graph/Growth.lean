import NetImport.Proofs.Graph.Verification
import Mathlib.Logic.Relation

/-!
# How a graph grows

A builder that succeeds appends one node, which is no output variable and no save, or
an output variable together with its save.  Both ways keep the graph well built, and
both keep every output variable saved.  Both also keep a graph verifying, whoever built it.
-/

namespace NetImport

/-- The kinds of node that a builder appends alone. -/
def NodeKind.StandsAlone (kind : NodeKind) : Prop :=
  (∀ type, kind ≠ .variable .output type) ∧ ∀ input output, kind ≠ .save input output

namespace Graph

/-- One successful call of a builder. -/
inductive Step (graph next : Graph) : Prop where
  | alone {name : String} {kind : NodeKind} {value : Handle}
      (hkind : kind.StandsAlone) (happend : graph.append name kind = .ok (next, value))
  | saved {name : String} {input output value : Handle} {type : TensorType}
      {withVariable : Graph} (htype : graph.valueType input = .ok type)
      (hvariable : graph.append name (.variable .output type) = .ok (withVariable, output))
      (hsave : withVariable.append ("save_" ++ name) (.save input output.node) =
        .ok (next, value))

theorem size_append {graph next : Graph} {name : String} {kind : NodeKind} {value : Handle}
    (happend : graph.append name kind = .ok (next, value)) :
    next.nodes.size = graph.nodes.size + 1 := by
  obtain ⟨results, -, -, rfl, -⟩ := append_eq_ok_iff.mp happend
  simp

theorem getElem?_append_of_lt {graph next : Graph} {name : String} {kind : NodeKind}
    {value : Handle} (happend : graph.append name kind = .ok (next, value)) {position : Nat}
    (hposition : position < graph.nodes.size) :
    next.nodes[position]? = graph.nodes[position]? := by
  obtain ⟨results, -, -, rfl, -⟩ := append_eq_ok_iff.mp happend
  rw [Array.getElem?_push, if_neg (by omega)]

theorem getElem?_append_size {graph next : Graph} {name : String} {kind : NodeKind}
    {value : Handle} (happend : graph.append name kind = .ok (next, value)) :
    ∃ node, next.nodes[graph.nodes.size]? = some node ∧ node.kind = kind := by
  obtain ⟨results, -, -, rfl, -⟩ := append_eq_ok_iff.mp happend
  exact ⟨_, Array.getElem?_push_size, rfl⟩

theorem rollback_append {graph next : Graph} {name : String} {kind : NodeKind}
    {value : Handle} (happend : graph.append name kind = .ok (next, value)) :
    next.rollback graph.checkpoint = graph := by
  obtain ⟨results, -, -, rfl, -⟩ := append_eq_ok_iff.mp happend
  simp [rollback, checkpoint]

/-- A refused save leaves the graph as it was, also when its variable was appended. -/
theorem saveInPlace_cases (graph : Graph) (name : String) (input : Handle) :
    (∃ error, graph.saveInPlace name input = (.error error, graph)) ∨
      ∃ type withVariable output next value, graph.valueType input = .ok type ∧
        graph.append name (.variable .output type) = .ok (withVariable, output) ∧
        withVariable.append ("save_" ++ name) (.save input output.node) = .ok (next, value) ∧
        graph.saveInPlace name input = (.ok output, next) := by
  unfold saveInPlace
  cases htype : graph.valueType input with
  | error error => exact .inl ⟨error, rfl⟩
  | ok type =>
      cases hvariable : graph.append name (.variable .output type) with
      | error error => exact .inl ⟨error, by simp [hvariable]⟩
      | ok appended =>
          obtain ⟨withVariable, output⟩ := appended
          cases hsave : withVariable.append ("save_" ++ name) (.save input output.node) with
          | error error =>
              exact .inl ⟨error, by simp [hvariable, hsave, rollback_append hvariable]⟩
          | ok saved =>
              exact .inr ⟨type, withVariable, output, saved.1, saved.2, rfl, hvariable,
                hsave, by simp [hvariable, hsave]⟩

namespace Step

variable {graph next : Graph}

theorem wellBuilt (hstep : graph.Step next) (hbuilt : graph.WellBuilt) : next.WellBuilt := by
  cases hstep with
  | alone hkind happend =>
      obtain ⟨results, hinfer, hfree, rfl, -⟩ := append_eq_ok_iff.mp happend
      exact hbuilt.push hinfer hfree fun input output hsave =>
        absurd hsave (hkind.2 input output)
  | saved htype hvariable hsave =>
      obtain ⟨results, hinfer, hfree, rfl, rfl⟩ := append_eq_ok_iff.mp hvariable
      obtain ⟨saveResults, hsaveInfer, hsaveFree, rfl, -⟩ := append_eq_ok_iff.mp hsave
      have hwith := hbuilt.push hinfer hfree fun _ _ h => by cases h
      refine hwith.push hsaveInfer hsaveFree fun input output h => ?_
      cases h
      simpa [Handle.first] using Typing.lt_size_of_operand htype

theorem size_le (hstep : graph.Step next) : graph.nodes.size ≤ next.nodes.size := by
  cases hstep with
  | alone hkind happend =>
      have := size_append happend
      omega
  | saved htype hvariable hsave =>
      have := size_append hvariable
      have := size_append hsave
      omega

/-- The nodes of before stay where they are. -/
theorem getElem?_eq (hstep : graph.Step next) {position : Nat}
    (hposition : position < graph.nodes.size) :
    next.nodes[position]? = graph.nodes[position]? := by
  cases hstep with
  | alone hkind happend => exact getElem?_append_of_lt happend hposition
  | saved htype hvariable hsave =>
      have hsize := size_append hvariable
      rw [getElem?_append_of_lt hsave (by omega), getElem?_append_of_lt hvariable hposition]

/-- The nodes of before begin those of after. -/
theorem prefix_toList (hstep : graph.Step next) :
    next.name = graph.name ∧ graph.nodes.toList <+: next.nodes.toList := by
  cases hstep with
  | alone hkind happend =>
      obtain ⟨results, -, -, rfl, -⟩ := append_eq_ok_iff.mp happend
      exact ⟨rfl, by simp⟩
  | saved htype hvariable hsave =>
      obtain ⟨results, -, -, rfl, -⟩ := append_eq_ok_iff.mp hvariable
      obtain ⟨saveResults, -, -, rfl, -⟩ := append_eq_ok_iff.mp hsave
      exact ⟨rfl, by simp [List.append_assoc]⟩

/-- What stands behind the old nodes is a node of its own, or an output variable with
its save. -/
theorem savedBelow_size (hstep : graph.Step next)
    (hsaved : graph.SavedBelow graph.nodes.size) :
    next.SavedBelow next.nodes.size := by
  have hold {output : Nat} {node : Node} (houtput : output < graph.nodes.size)
      (hnode : next.nodes[output]? = some node) (hisOutput : node.isOutput) :
      output + 1 < next.nodes.size ∧
        ∃ saving, next.nodes[output + 1]? = some saving ∧ saving.savesInto? = some output := by
    rw [hstep.getElem?_eq houtput] at hnode
    obtain ⟨hbefore, saving, hsaving, hinto⟩ := hsaved _ _ houtput hnode hisOutput
    have hsize := hstep.size_le
    exact ⟨by omega, saving, by rw [hstep.getElem?_eq hbefore, hsaving], hinto⟩
  intro output node houtput hnode hisOutput
  by_cases hbefore : output < graph.nodes.size
  · exact hold hbefore hnode hisOutput
  cases hstep with
  | alone hkind happend =>
      have hsize := size_append happend
      obtain rfl : output = graph.nodes.size := by omega
      obtain ⟨last, hlast, hlastKind⟩ := getElem?_append_size happend
      obtain rfl : last = node := Option.some.inj (hlast.symm.trans hnode)
      rw [← hlastKind] at hkind
      simp only [Node.isOutput, Node.role?] at hisOutput
      grind [NodeKind.StandsAlone]
  | saved htype hvariable hsave =>
      have hvariableSize := size_append hvariable
      have hsaveSize := size_append hsave
      obtain ⟨results, -, -, -, rfl⟩ := append_eq_ok_iff.mp hvariable
      obtain ⟨saving, hsaving, hsavingKind⟩ := getElem?_append_size hsave
      rw [hvariableSize] at hsaving
      have hinto : saving.savesInto? = some graph.nodes.size :=
        WellBuilt.savesInto_iff.mpr ⟨_, hsavingKind⟩
      by_cases hlast : output = graph.nodes.size
      · exact ⟨by omega, saving, hlast ▸ hsaving, hlast ▸ hinto⟩
      · obtain rfl : output = graph.nodes.size + 1 := by omega
        obtain rfl : saving = node := Option.some.inj (hsaving.symm.trans hnode)
        simp [Node.isOutput, Node.role?, hsavingKind] at hisOutput

end Step

/-- A graph that builders made, with a save directly behind every output variable. -/
structure Built (graph : Graph) : Prop where
  wellBuilt : graph.WellBuilt
  saved : graph.SavedBelow graph.nodes.size

theorem built_empty (name : String) : (empty name).Built where
  wellBuilt := wellBuilt_empty name
  saved := fun output node houtput => by simp [empty] at houtput

section

variable {graph next : Graph}

theorem Step.built (hstep : graph.Step next) (hbuilt : graph.Built) :
    next.Built where
  wellBuilt := hstep.wellBuilt hbuilt.wellBuilt
  saved := hstep.savedBelow_size hbuilt.saved

theorem Built.check_eq_ok (hbuilt : graph.Built) : graph.check = .ok () :=
  hbuilt.wellBuilt.check_eq_ok_iff.mpr hbuilt.saved

/-! ## Graphs that verify -/

theorem writers_push (name : String) (nodes : Array Node) (node : Node) (output : Nat) :
    writers ⟨name, nodes.push node⟩ output =
      writers ⟨name, nodes⟩ output + if node.savesInto? = some output then 1 else 0 := by
  rw [writers_eq_countP, writers_eq_countP, Array.toList_push, List.countP_append,
    List.countP_singleton]
  simp only [beq_iff_eq]

/-- No node saves into one that comes later. -/
theorem Typed.writers_size (htyped : graph.Typed) : graph.writers graph.nodes.size = 0 := by
  rw [writers_eq_countP, List.countP_eq_zero]
  intro node hnode hinto
  obtain ⟨position, hposition⟩ := Array.mem_iff_getElem?.mp (Array.mem_toList_iff.mp hnode)
  obtain ⟨input, hkind⟩ := WellBuilt.savesInto_iff.mp (eq_of_beq hinto)
  have hbefore := (htyped.target_before hposition hkind).1
  have hbound := (Array.getElem?_eq_some_iff.mp hposition).1
  omega

theorem Verifies.append_alone (hverifies : graph.Verifies) {name : String} {kind : NodeKind}
    {value : Handle} (hkind : kind.StandsAlone)
    (happend : graph.append name kind = .ok (next, value)) :
    next.Verifies := by
  obtain ⟨results, hinfer, hfree, rfl, -⟩ := append_eq_ok_iff.mp happend
  refine ⟨hverifies.toTyped.push hinfer hfree, ?_⟩
  intro position node hnode houtput
  have hnosave : ¬ (⟨name, kind, results⟩ : Node).savesInto? = some position := by
    intro hinto
    obtain ⟨input, hsave⟩ := WellBuilt.savesInto_iff.mp hinto
    exact hkind.2 _ _ hsave
  rw [Array.getElem?_push] at hnode
  split at hnode
  · obtain rfl := Option.some.inj hnode
    simp only [Node.isOutput, Node.role?] at houtput
    grind [NodeKind.StandsAlone]
  · rw [writers_push, if_neg hnosave]
    exact hverifies.savedOnce hnode houtput

theorem Verifies.append_saved (hverifies : graph.Verifies) {name : String}
    {input output value : Handle} {type : TensorType} {withVariable : Graph}
    (hvariable : graph.append name (.variable .output type) = .ok (withVariable, output))
    (hsave : withVariable.append ("save_" ++ name) (.save input output.node) =
      .ok (next, value)) :
    next.Verifies := by
  obtain ⟨results, hinfer, hfree, rfl, rfl⟩ := append_eq_ok_iff.mp hvariable
  obtain ⟨saveResults, hsaveInfer, hsaveFree, rfl, -⟩ := append_eq_ok_iff.mp hsave
  refine ⟨(hverifies.toTyped.push hinfer hfree).push hsaveInfer hsaveFree, ?_⟩
  intro position node hnode houtput
  dsimp only at hnode ⊢
  rw [writers_push, writers_push, if_neg (by simp [Node.savesInto?])]
  rw [Array.getElem?_push, Array.getElem?_push] at hnode
  split at hnode
  · obtain rfl := Option.some.inj hnode
    simp [Node.isOutput, Node.role?] at houtput
  · split at hnode
    · next hnew =>
        rw [if_pos (by simp [Node.savesInto?, Handle.first, hnew]), hnew]
        exact congrArg (· + 1) hverifies.toTyped.writers_size
    · have hbound := (Array.getElem?_eq_some_iff.mp hnode).1
      rw [if_neg (by simp [Node.savesInto?, Handle.first]; omega)]
      exact hverifies.savedOnce hnode houtput

theorem Step.verifies (hstep : graph.Step next) (hverifies : graph.Verifies) :
    next.Verifies := by
  cases hstep with
  | alone hkind happend => exact hverifies.append_alone hkind happend
  | saved htype hvariable hsave => exact hverifies.append_saved hvariable hsave

end

theorem SavedBelow.of_agree {graph next : Graph} {mark : Nat} (hsaved : graph.SavedBelow mark)
    (hagree : ∀ position < mark, next.nodes[position]? = graph.nodes[position]?) :
    next.SavedBelow mark := by
  intro output node houtput hnode hisOutput
  rw [hagree output houtput] at hnode
  obtain ⟨hbefore, saving, hsaving, hinto⟩ := hsaved _ _ houtput hnode hisOutput
  exact ⟨hbefore, saving, by rw [hagree _ hbefore, hsaving], hinto⟩

/-! ## Several steps -/

/-- Some successful calls of builders lead from one graph to another. -/
abbrev Reaches : Graph → Graph → Prop := Relation.ReflTransGen Step

section

variable {graph next : Graph}

theorem Reaches.verifies (hreaches : graph.Reaches next) (hverifies : graph.Verifies) :
    next.Verifies := by
  induction hreaches with
  | refl => exact hverifies
  | tail _ hstep ih => exact hstep.verifies ih

theorem Reaches.wellBuilt (hreaches : graph.Reaches next) (hbuilt : graph.WellBuilt) :
    next.WellBuilt := by
  induction hreaches with
  | refl => exact hbuilt
  | tail _ hstep ih => exact hstep.wellBuilt ih

theorem Reaches.prefix_toList (hreaches : graph.Reaches next) :
    next.name = graph.name ∧ graph.nodes.toList <+: next.nodes.toList := by
  induction hreaches with
  | refl => exact ⟨rfl, List.prefix_refl _⟩
  | tail _ hstep ih =>
      obtain ⟨hname, hnodes⟩ := hstep.prefix_toList
      exact ⟨hname.trans ih.1, ih.2.trans hnodes⟩

/-- Going back to the number of nodes of before undoes what was built since. -/
theorem Reaches.rollback_eq (hreaches : graph.Reaches next) :
    next.rollback graph.checkpoint = graph := by
  obtain ⟨hname, hnodes⟩ := hreaches.prefix_toList
  have hkept : next.nodes.take graph.nodes.size = graph.nodes := by
    rw [← Array.toList_inj, Array.take_eq_extract, Array.toList_extract,
      ← Array.length_toList]
    simpa using (List.prefix_iff_eq_take.mp hnodes).symm
  rw [rollback, checkpoint, hkept, hname]

end

end Graph
end NetImport
