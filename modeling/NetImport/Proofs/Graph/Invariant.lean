import NetImport.Graph.Verification
import NetImport.Proofs.Graph.Typing

/-!
# The invariant of graphs under construction

Builders keep a graph well built: every node types against the nodes before it, no two
variables share a name, and a save stands directly behind the output variable that it
writes, with an input older than both.  Cutting a graph back keeps all of this, but may
drop the save of its last output variable.
-/

namespace NetImport

theorem take_push_of_le {α : Type} {xs : Array α} {x : α} {count : Nat}
    (hcount : count ≤ xs.size) :
    (xs.push x).take count = xs.take count := by
  exact Array.extract_push_of_le hcount

theorem getElem?_take_eq {α : Type} (xs : Array α) (count index : Nat) :
    (xs.take count)[index]? = if index < count then xs[index]? else none := by
  rw [Array.take_eq_extract, Array.getElem?_extract]
  simp
  grind

namespace Graph

theorem findVariable?_eq_none_iff {graph : Graph} {name : String} :
    graph.findVariable? name = none ↔
      ∀ node ∈ graph.nodes, node.isVariable → node.name ≠ name := by
  simp [findVariable?, Array.findIdx?_eq_none_iff]

theorem append_eq_ok_iff {graph next : Graph} {name : String} {kind : NodeKind}
    {value : Handle} :
    graph.append name kind = .ok (next, value) ↔
      ∃ results, Typing.infer kind graph.nodes = .ok results ∧
        (kind.isVariable → ∀ node ∈ graph.nodes, node.isVariable → node.name ≠ name) ∧
        next = { graph with nodes := graph.nodes.push ⟨name, kind, results⟩ } ∧
        value = .first graph.nodes.size := by
  simp only [append, bind_eq_ok_iff]
  refine exists_congr fun results => and_congr_right fun _ => ?_
  by_cases htaken : kind.isVariable && (graph.findVariable? name).isSome
  · rw [if_pos htaken]
    simp only [Bool.and_eq_true, Option.isSome_iff_ne_none] at htaken
    simp only [reduceCtorEq, false_iff]
    exact fun hfree => htaken.2 (findVariable?_eq_none_iff.mpr (hfree.1 htaken.1))
  · rw [if_neg htaken]
    simp only [Bool.and_eq_true, Option.isSome_iff_ne_none, not_and, not_not] at htaken
    have hfree (hvariable : kind.isVariable) :=
      findVariable?_eq_none_iff.mp (htaken hvariable)
    simp only [pure_eq_ok_iff, Prod.mk.injEq]
    exact ⟨fun h => ⟨hfree, h.1.symm, h.2.symm⟩, fun h => ⟨h.2.1.symm, h.2.2.symm⟩⟩

/-- Every node types against the nodes before it, and variables have names of their own. -/
structure Typed (graph : Graph) : Prop where
  inferred : ∀ {position : Nat} {node : Node}, graph.nodes[position]? = some node →
    Typing.infer node.kind (graph.nodes.take position) = .ok node.results
  distinctNames : ∀ {i j : Nat} {m n : Node}, graph.nodes[i]? = some m →
    graph.nodes[j]? = some n → m.isVariable → n.isVariable → m.name = n.name → i = j

namespace Typed

variable {graph : Graph}

theorem operand_before (htyped : graph.Typed) {position : Nat} {node : Node}
    (hnode : graph.nodes[position]? = some node) {value : Handle}
    (hvalue : value ∈ node.kind.operands) :
    value.node < position := by
  obtain ⟨type, htype⟩ := Typing.operand_of_infer (htyped.inferred hnode) hvalue
  have hbound := Typing.lt_size_of_operand htype
  have hsize : (graph.nodes.take position).size ≤ position := by
    rw [Array.take_eq_extract, Array.size_extract]
    omega
  omega

theorem target_before (htyped : graph.Typed) {position output : Nat} {node : Node}
    {input : Handle} (hnode : graph.nodes[position]? = some node)
    (hkind : node.kind = .save input output) :
    output < position ∧ ∃ target, graph.nodes[output]? = some target ∧ target.isOutput := by
  have hinfer := htyped.inferred hnode
  rw [hkind] at hinfer
  obtain ⟨target, type, htarget, htargetKind, -⟩ := Typing.target_of_infer_save hinfer
  rw [getElem?_take_eq] at htarget
  split at htarget
  · next hbefore =>
      exact ⟨hbefore, target, htarget, by simp [Node.isOutput, Node.role?, htargetKind]⟩
  · cases htarget

/-- A new node leaves the old ones in place. -/
theorem push (htyped : graph.Typed) {name : String} {kind : NodeKind}
    {results : List TensorType}
    (hinfer : Typing.infer kind graph.nodes = .ok results)
    (hfree : kind.isVariable → ∀ node ∈ graph.nodes, node.isVariable → node.name ≠ name) :
    Typed { graph with nodes := graph.nodes.push ⟨name, kind, results⟩ } := by
  constructor
  · intro position node hnode
    rw [Array.getElem?_push] at hnode
    split at hnode
    · next hlast =>
        obtain rfl := Option.some.inj hnode
        rw [hlast, take_push_of_le (Nat.le_refl _)]
        simpa using hinfer
    · next hold =>
        have hbound := (Array.getElem?_eq_some_iff.mp hnode).1
        rw [take_push_of_le (Nat.le_of_lt hbound)]
        exact htyped.inferred hnode
  · intro i j m n hm hn hmVariable hnVariable hname
    rw [Array.getElem?_push] at hm hn
    split at hm <;> split at hn
    · omega
    · obtain rfl := Option.some.inj hm
      exact absurd hname.symm
        (hfree hmVariable n (Array.mem_of_getElem? hn) hnVariable)
    · obtain rfl := Option.some.inj hn
      exact absurd hname (hfree hnVariable m (Array.mem_of_getElem? hm) hmVariable)
    · exact htyped.distinctNames hm hn hmVariable hnVariable hname

end Typed

/-- A graph that types, in which a save follows its output variable. -/
structure WellBuilt (graph : Graph) : Prop extends Typed graph where
  saveFollows : ∀ {position output : Nat} {node : Node} {input : Handle},
    graph.nodes[position]? = some node → node.kind = .save input output →
    position = output + 1 ∧ input.node < output

theorem wellBuilt_empty (name : String) : (empty name).WellBuilt where
  inferred := by simp [empty]
  distinctNames := by simp [empty]
  saveFollows := by simp [empty]

namespace WellBuilt

variable {graph : Graph}

theorem savesInto_iff {node : Node} {output : Nat} :
    node.savesInto? = some output ↔ ∃ input, node.kind = .save input output := by
  cases hkind : node.kind <;> simp [Node.savesInto?, hkind]

theorem save_unique (hbuilt : graph.WellBuilt) {i j output : Nat} {m n : Node}
    (hm : graph.nodes[i]? = some m) (hn : graph.nodes[j]? = some n)
    (hmSave : m.savesInto? = some output) (hnSave : n.savesInto? = some output) :
    i = j := by
  obtain ⟨x, hx⟩ := savesInto_iff.mp hmSave
  obtain ⟨y, hy⟩ := savesInto_iff.mp hnSave
  rw [(hbuilt.saveFollows hm hx).1, (hbuilt.saveFollows hn hy).1]

theorem push (hbuilt : graph.WellBuilt) {name : String} {kind : NodeKind}
    {results : List TensorType}
    (hinfer : Typing.infer kind graph.nodes = .ok results)
    (hfree : kind.isVariable → ∀ node ∈ graph.nodes, node.isVariable → node.name ≠ name)
    (hsave : ∀ input output, kind = .save input output →
      graph.nodes.size = output + 1 ∧ input.node < output) :
    WellBuilt { graph with nodes := graph.nodes.push ⟨name, kind, results⟩ } := by
  refine ⟨hbuilt.toTyped.push hinfer hfree, ?_⟩
  intro position output node input hnode hkind
  rw [Array.getElem?_push] at hnode
  split at hnode
  · next hlast =>
      obtain rfl := Option.some.inj hnode
      rw [hlast]
      exact hsave input output hkind
  · exact hbuilt.saveFollows hnode hkind

theorem rollback (hbuilt : graph.WellBuilt) (mark : Nat) :
    (graph.rollback mark).WellBuilt := by
  have hkept {position : Nat} {node : Node}
      (hnode : (graph.rollback mark).nodes[position]? = some node) :
      position < mark ∧ graph.nodes[position]? = some node := by
    rw [Graph.rollback, getElem?_take_eq] at hnode
    split at hnode
    · next hposition => exact ⟨hposition, hnode⟩
    · cases hnode
  refine ⟨⟨?_, ?_⟩, ?_⟩
  · intro position node hnode
    obtain ⟨hposition, hold⟩ := hkept hnode
    have htake : (graph.rollback mark).nodes.take position = graph.nodes.take position := by
      rw [Graph.rollback, Array.take_eq_extract, Array.take_eq_extract,
        Array.take_eq_extract, Array.extract_extract]
      congr 1
      omega
    rw [htake]
    exact hbuilt.inferred hold
  · intro i j m n hm hn
    exact hbuilt.distinctNames (hkept hm).2 (hkept hn).2
  · intro position output node input hnode
    exact hbuilt.saveFollows (hkept hnode).2

end WellBuilt

end Graph
end NetImport
