import NetImport.Proofs.Graph.Invariant
import Mathlib.Data.List.Count

/-!
# When a graph verifies

A graph verifies when it types and every output variable is written by one save.  The
checks of single nodes never fail on a well-built graph.  What may be missing there is the
save of an output variable, so verification comes down to the question whether every
output variable is followed by its save.
-/

namespace NetImport

theorem countP_le_one_of_unique {α : Type} {p : α → Bool} {xs : List α}
    (hunique : ∀ (i j : Nat) (x y : α), xs[i]? = some x → xs[j]? = some y →
      p x → p y → i = j) :
    xs.countP p ≤ 1 := by
  induction xs with
  | nil => simp
  | cons x xs ih =>
      have htail : xs.countP p ≤ 1 := by
        refine ih fun i j y z hy hz hpy hpz => ?_
        have := hunique (i + 1) (j + 1) y z (by simpa using hy) (by simpa using hz) hpy hpz
        omega
      by_cases hx : p x
      · have hnone : xs.countP p = 0 := by
          rw [List.countP_eq_zero]
          intro y hy hpy
          obtain ⟨i, hi⟩ := List.mem_iff_getElem?.mp hy
          have := hunique 0 (i + 1) x y (by simp) (by simpa using hi) hx hpy
          omega
        simp [hx, hnone]
      · simpa [hx] using htail

namespace Graph

/-- Every output variable before a mark is followed by its save, also before the mark. -/
def SavedBelow (graph : Graph) (mark : Nat) : Prop :=
  ∀ (output : Nat) (node : Node), output < mark → graph.nodes[output]? = some node →
    node.isOutput → output + 1 < mark ∧
      ∃ saving, graph.nodes[output + 1]? = some saving ∧ saving.savesInto? = some output

theorem writers_eq_countP (graph : Graph) (output : Nat) :
    graph.writers output =
      graph.nodes.toList.countP fun node => node.savesInto? == some output := by
  simp [writers, ← Array.length_toList, List.countP_eq_length_filter]

theorem mem_zipIdx_iff {graph : Graph} {position : Nat} {node : Node} :
    (node, position) ∈ graph.nodes.toList.zipIdx ↔ graph.nodes[position]? = some node := by
  simp [List.mem_zipIdx_iff_getElem?]

theorem checkNode_eq_ok_iff {graph : Graph} {position : Nat} {node : Node} :
    graph.checkNode position node = .ok () ↔
      Typing.infer node.kind (graph.nodes.take position) = .ok node.results ∧
        (node.isVariable → ∀ other ∈ graph.nodes.take position,
          other.isVariable → other.name ≠ node.name) := by
  dsimp only [checkNode]
  generalize graph.nodes.take position = before
  cases Typing.infer node.kind before with
  | error error => simp
  | ok results =>
      by_cases hresults : results = node.results
      · simp [hresults, -Array.any_eq_true, Array.any_eq_true']
      · simp [hresults]

namespace Typed

variable {graph : Graph}

theorem checkNode_eq_ok (htyped : graph.Typed) {position : Nat} {node : Node}
    (hnode : graph.nodes[position]? = some node) :
    graph.checkNode position node = .ok () := by
  refine checkNode_eq_ok_iff.mpr ⟨htyped.inferred hnode, ?_⟩
  intro hvariable other hother hotherVariable hname
  obtain ⟨index, hindex⟩ := Array.mem_iff_getElem?.mp hother
  rw [getElem?_take_eq] at hindex
  split at hindex
  · next hbefore =>
      have := htyped.distinctNames hindex hnode hotherVariable hvariable hname
      omega
  · cases hindex

theorem of_checkNode (hchecked : ∀ {position : Nat} {node : Node},
      graph.nodes[position]? = some node → graph.checkNode position node = .ok ()) :
    graph.Typed := by
  have hordered {i j : Nat} {m n : Node} (hm : graph.nodes[i]? = some m)
      (hn : graph.nodes[j]? = some n) (hmVariable : m.isVariable) (hnVariable : n.isVariable)
      (hname : m.name = n.name) : ¬ i < j := by
    intro hbefore
    obtain ⟨-, hfresh⟩ := checkNode_eq_ok_iff.mp (hchecked hn)
    refine hfresh hnVariable m ?_ hmVariable hname
    exact Array.mem_of_getElem? (i := i) (by rw [getElem?_take_eq, if_pos hbefore, hm])
  constructor
  · exact fun hnode => (checkNode_eq_ok_iff.mp (hchecked hnode)).1
  · intro i j m n hm hn hmVariable hnVariable hname
    have hij := hordered hm hn hmVariable hnVariable hname
    have hji := hordered hn hm hnVariable hmVariable hname.symm
    omega

theorem check_eq (htyped : graph.Typed) :
    graph.check = graph.nodes.toList.zipIdx.forM
      fun (node, position) => graph.checkOutput position node := by
  have hnodes : (graph.nodes.toList.zipIdx.forM
      fun (node, position) => graph.checkNode position node) = .ok () := by
    rw [forM_eq_ok_iff]
    exact fun (node, position) hmem => htyped.checkNode_eq_ok (mem_zipIdx_iff.mp hmem)
  rw [check, hnodes, ok_bind]

end Typed

/-- What verification finds out about a graph. -/
structure Verifies (graph : Graph) : Prop extends Typed graph where
  savedOnce : ∀ {position : Nat} {node : Node}, graph.nodes[position]? = some node →
    node.isOutput → graph.writers position = 1

theorem checkOutput_eq_ok_iff {graph : Graph} {position : Nat} {node : Node} :
    graph.checkOutput position node = .ok () ↔
      (node.isOutput → graph.writers position = 1) := by
  simp [checkOutput]

theorem check_eq_ok_iff_verifies {graph : Graph} :
    graph.check = .ok () ↔ graph.Verifies := by
  constructor
  · intro hcheck
    obtain ⟨_, hnodes, houtputs⟩ := bind_eq_ok_iff.mp hcheck
    rw [forM_eq_ok_iff] at hnodes houtputs
    refine ⟨Typed.of_checkNode fun hnode => hnodes _ (mem_zipIdx_iff.mpr hnode), ?_⟩
    exact fun hnode => checkOutput_eq_ok_iff.mp (houtputs _ (mem_zipIdx_iff.mpr hnode))
  · intro hverifies
    rw [hverifies.check_eq, forM_eq_ok_iff]
    exact fun (node, position) hmem =>
      checkOutput_eq_ok_iff.mpr (hverifies.savedOnce (mem_zipIdx_iff.mp hmem))

namespace WellBuilt

variable {graph : Graph}

theorem writers_le_one (hbuilt : graph.WellBuilt) (output : Nat) :
    graph.writers output ≤ 1 := by
  rw [writers_eq_countP]
  refine countP_le_one_of_unique fun i j m n hm hn hmSave hnSave => ?_
  simp only [Array.getElem?_toList, beq_iff_eq] at hm hn hmSave hnSave
  exact hbuilt.save_unique hm hn hmSave hnSave

theorem writers_pos_iff {output : Nat} :
    0 < graph.writers output ↔
      ∃ (position : Nat) (saving : Node), graph.nodes[position]? = some saving ∧
        saving.savesInto? = some output := by
  simp only [writers_eq_countP, List.countP_pos_iff, beq_iff_eq, Array.mem_toList_iff,
    Array.mem_iff_getElem?]
  exact ⟨fun ⟨saving, ⟨position, h⟩, hs⟩ => ⟨position, saving, h, hs⟩,
    fun ⟨position, saving, h, hs⟩ => ⟨saving, ⟨position, h⟩, hs⟩⟩

theorem check_eq_ok_iff (hbuilt : graph.WellBuilt) :
    graph.check = .ok () ↔ graph.SavedBelow graph.nodes.size := by
  rw [hbuilt.check_eq, forM_eq_ok_iff]
  constructor
  · intro hchecked output node _ hnode houtput
    have hone := hchecked (node, output) (mem_zipIdx_iff.mpr hnode)
    simp only [checkOutput, houtput, Bool.true_and, bne_iff_ne, ne_eq, ite_eq_right_iff,
      reduceCtorEq, imp_false, not_not] at hone
    have hpos : 0 < graph.writers output := by omega
    obtain ⟨position, saving, hsaving, hinto⟩ := writers_pos_iff.mp hpos
    obtain ⟨input, hkind⟩ := savesInto_iff.mp hinto
    obtain ⟨rfl, -⟩ := hbuilt.saveFollows hsaving hkind
    exact ⟨(Array.getElem?_eq_some_iff.mp hsaving).1, saving, hsaving, hinto⟩
  · rintro hsaved ⟨node, position⟩ hmem
    have hnode := mem_zipIdx_iff.mp hmem
    by_cases houtput : node.isOutput
    · obtain ⟨-, saving, hsaving, hinto⟩ :=
        hsaved _ _ (Array.getElem?_eq_some_iff.mp hnode).1 hnode houtput
      have hpos := writers_pos_iff.mpr ⟨_, saving, hsaving, hinto⟩
      have hle := hbuilt.writers_le_one position
      have hone : graph.writers position = 1 := by omega
      simp [checkOutput, hone]
    · simp [checkOutput, houtput]

theorem check_eq_error (hbuilt : graph.WellBuilt) {error : GraphError}
    (herror : graph.check = .error error) :
    ∃ node ∈ graph.nodes, node.isOutput ∧
      error = .verification node.name "output written by 0 save nodes" := by
  rw [hbuilt.check_eq] at herror
  obtain ⟨⟨node, position⟩, hmem, hfailed⟩ := exists_mem_of_forM_eq_error herror
  have hnode := mem_zipIdx_iff.mp hmem
  have hle := hbuilt.writers_le_one position
  simp only [checkOutput] at hfailed
  split at hfailed
  · next hcondition =>
      simp only [Bool.and_eq_true, bne_iff_ne] at hcondition
      have hzero : graph.writers position = 0 := by omega
      rw [hzero] at hfailed
      exact ⟨node, Array.mem_of_getElem? hnode, hcondition.1, (Except.error.inj hfailed).symm⟩
  · cases hfailed

end WellBuilt

theorem verify_eq_ok_of_check {graph : Graph} (hcheck : graph.check = .ok ()) :
    graph.verify = .ok ⟨graph, hcheck⟩ := by
  unfold verify
  split
  · rfl
  · next error herror =>
      rw [hcheck] at herror
      cases herror

theorem graph_of_verify_eq_ok {graph : Graph} {verified : VerifiedGraph}
    (hverify : graph.verify = .ok verified) :
    verified.graph = graph := by
  unfold verify at hverify
  split at hverify
  · rw [← Except.ok.inj hverify]
  · cases hverify

theorem check_of_verify_eq_error {graph : Graph} {error : GraphError}
    (hverify : graph.verify = .error error) :
    graph.check = .error error := by
  unfold verify at hverify
  split at hverify
  · cases hverify
  · next herror => exact herror.trans (congrArg _ (Except.error.inj hverify))

end Graph
end NetImport
