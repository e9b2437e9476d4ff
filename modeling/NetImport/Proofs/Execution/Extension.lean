import NetImport.Proofs.Execution.Evaluation
import NetImport.Proofs.Graph.Growth

/-!
# Values in a graph that grows

A node that is no save leaves the values of all nodes before it as they were, and the value
of one that computes follows from those of its operands.
-/

namespace NetImport

theorem NodeKind.Computes.standsAlone {kind : NodeKind} (hkind : kind.Computes) :
    kind.StandsAlone := by
  constructor
  · rintro type rfl
    exact hkind
  · rintro input output rfl
    exact hkind

namespace Graph

variable {graph next : Graph} {name : String} {kind : NodeKind} {value : Handle}

theorem savedInput?_append (hkind : kind.StandsAlone)
    (happend : graph.append name kind = .ok (next, value)) (output : Nat) :
    next.savedInput? output = graph.savedInput? output := by
  obtain ⟨results, -, -, rfl, -⟩ := append_eq_ok_iff.mp happend
  cases kind with
  | save input output => exact absurd rfl (hkind.2 input output)
  | _ => simp [savedInput?, List.findSome?_append]

theorem evaluate_append_of_lt (hkind : kind.StandsAlone)
    (happend : graph.append name kind = .ok (next, value)) (bindings : Bindings)
    {position : Nat} (hposition : position < graph.nodes.size) :
    next.evaluate bindings position = graph.evaluate bindings position := by
  induction position using Nat.strongRecOn with
  | ind position ih =>
      have hnode : graph.nodes[position]? = some graph.nodes[position] :=
        Array.getElem?_eq_getElem hposition
      have hnext := (getElem?_append_of_lt happend hposition).trans hnode
      have hread : next.valueBefore bindings position = graph.valueBefore bindings position := by
        funext operand
        unfold valueBefore
        split
        · next hbefore => exact ih _ hbefore (Nat.lt_trans hbefore hposition)
        · rfl
      rw [evaluate_eq _ _ hnode, evaluate_eq _ _ hnext, hread]
      simp only [nodeValue, savedInput?_append hkind happend]

theorem nodeValue_of_results (graph : Graph) (bindings : Bindings) (position : Nat)
    {node : Node} {type : TensorType} (hkind : node.kind.Computes)
    (hresults : node.results = [type]) (read : Handle → Except TensorError Tensor) :
    graph.nodeValue bindings position node read =
      Engine.applyKernel node.kind read (Tensor.zeros type.dtype type.shape) := by
  unfold nodeValue
  split <;> (try (next hother => rw [hother] at hkind; exact hkind.elim))
  next => rw [hresults]

/-- The value of a node that has just been appended. -/
theorem evaluate_append (hkind : kind.Computes)
    (happend : graph.append name kind = .ok (next, value)) {type : TensorType}
    (hinfer : Typing.infer kind graph.nodes = .ok [type]) (bindings : Bindings) :
    next.evaluate bindings value.node =
      Engine.applyKernel kind (fun operand => graph.evaluate bindings operand.node)
        (Tensor.zeros type.dtype type.shape) := by
  have hsame {position : Nat} :=
    @evaluate_append_of_lt _ _ _ _ _ hkind.standsAlone happend bindings position
  obtain ⟨results, hresults, -, rfl, rfl⟩ := append_eq_ok_iff.mp happend
  obtain rfl : results = [type] := Except.ok.inj (hresults.symm.trans hinfer)
  rw [evaluate_eq _ _ (Array.getElem?_push_size ..),
    nodeValue_of_results _ _ _ hkind rfl]
  refine Engine.applyKernel_congr_read (fun operand hoperand => ?_) _
  obtain ⟨found, hfound⟩ := Typing.operand_of_infer hinfer hoperand
  have hbefore := Typing.lt_size_of_operand hfound
  rw [valueBefore, Handle.first, if_pos hbefore, hsame hbefore]

end Graph
end NetImport
