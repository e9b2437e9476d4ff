import NetImport.Proofs.Execution.Kernels
import NetImport.Proofs.Graph.Verification

/-!
# Buffers hold tensors of the types of their nodes

An engine keeps this through every run, also through one that is refused half way: the
buffer of a constant is the constant itself, any other node with a result owns a tensor
of the type of the result, and a save has no buffer of its own.
-/

namespace NetImport

namespace VerifiedGraph

theorem inferred (verified : VerifiedGraph) {position : Nat} {node : Node}
    (hnode : verified.nodes[position]? = some node) :
    Typing.infer node.kind (verified.nodes.take position) = .ok node.results := by
  have hcheck := verified.verified
  simp only [Graph.check, bind_eq_ok_iff, forM_eq_ok_iff] at hcheck
  obtain ⟨-, hnodes, -⟩ := hcheck
  have hone := hnodes (node, position) (Graph.mem_zipIdx_iff.mpr hnode)
  simp only [Graph.checkNode] at hone
  split at hone
  · cases hone
  · next results hinfer =>
      split at hone
      · cases hone
      · next hresults =>
          rw [not_not] at hresults
          rw [← hresults]
          exact hinfer

end VerifiedGraph

namespace Typing

/-- What types among the first nodes types among all of them. -/
theorem operand_of_operand_take {nodes : Array Node} {count : Nat} {value : Handle}
    {type : TensorType} (hvalue : operand (nodes.take count) value = .ok type) :
    value.node < count ∧ operand nodes value = .ok type := by
  obtain ⟨node, hnode, hresult⟩ := operand_eq_ok_iff.mp hvalue
  rw [getElem?_take_eq] at hnode
  split at hnode
  · next hbefore => exact ⟨hbefore, operand_eq_ok_iff.mpr ⟨node, hnode, hresult⟩⟩
  · cases hnode

/-- A node with a result has no other. -/
theorem results_of_result {node : Node} {defined : Array Node}
    (hinfer : infer node.kind defined = .ok node.results) {result : Nat} {type : TensorType}
    (hresult : node.results[result]? = some type) :
    node.results = [type] := by
  rcases results_of_infer hinfer with ⟨-, hnone⟩ | ⟨-, only, honly⟩
  · simp [hnone] at hresult
  · rw [honly] at hresult ⊢
    simp only [List.getElem?_singleton, Option.ite_none_right_eq_some,
      Option.some.injEq] at hresult
    rw [hresult.2]

theorem results_of_constant {node : Node} {defined : Array Node}
    (hinfer : infer node.kind defined = .ok node.results) {tensor : Tensor}
    (hconstant : node.constant? = some tensor) :
    node.results = [tensor.type] := by
  cases hkind : node.kind <;> simp [Node.constant?, Node.role?, hkind] at hconstant
  next role declared =>
    split at hconstant
    · next payload hrole =>
        cases hconstant
        obtain rfl := Option.some.inj hrole
        simp only [hkind, infer, variableType, bind_eq_ok_iff, pure_eq_ok_iff] at hinfer
        obtain ⟨type, htype, hresults⟩ := hinfer
        split at htype
        · next hdeclared => rw [← hresults, ← Except.ok.inj htype, hdeclared]
        · cases htype
    · cases hconstant

end Typing

namespace Buffer

/-- A buffer that a node can have between its runs. -/
def Fits (node : Node) (buffer : Buffer) : Prop :=
  match node.constant?, node.results with
  | some tensor, _ => buffer = .shared tensor
  | none, type :: _ => ∃ tensor : Tensor, buffer = .owned tensor ∧ tensor.type = type
  | none, [] => buffer = .empty

theorem prepared_fits (node : Node) : Fits node (prepared node) := by
  unfold Fits prepared
  cases node.constant? with
  | some tensor => rfl
  | none =>
      cases node.results with
      | nil => rfl
      | cons type rest => exact ⟨_, rfl, rfl⟩

theorem Fits.ownedBytes_eq {node : Node} {buffer : Buffer} (hfits : buffer.Fits node) :
    buffer.ownedBytes = (prepared node).ownedBytes := by
  unfold Fits at hfits
  unfold prepared
  cases hconstant : node.constant? with
  | some tensor =>
      simp only [hconstant] at hfits
      rw [hfits]
  | none =>
      cases hresults : node.results with
      | nil =>
          simp only [hconstant, hresults] at hfits
          rw [hfits]
      | cons type rest =>
          simp only [hconstant, hresults] at hfits
          obtain ⟨tensor, rfl, rfl⟩ := hfits
          rfl

theorem fits_iff_of_result {node : Node} {type : TensorType} {buffer : Buffer}
    (hconstant : node.constant? = none) (hresults : node.results = [type]) :
    buffer.Fits node ↔ ∃ tensor : Tensor, buffer = .owned tensor ∧ tensor.type = type := by
  simp only [Fits, hconstant, hresults]

/-- A node with a result has a tensor of the type of the result. -/
theorem Fits.exists_tensor {node : Node} {buffer : Buffer} {defined : Array Node}
    (hfits : buffer.Fits node) (hinfer : Typing.infer node.kind defined = .ok node.results)
    {result : Nat} {type : TensorType} (hresult : node.results[result]? = some type) :
    ∃ tensor, buffer.tensor? = some tensor ∧ tensor.type = type := by
  have hresults := Typing.results_of_result hinfer hresult
  unfold Fits at hfits
  cases hconstant : node.constant? with
  | none =>
      simp only [hconstant, hresults] at hfits
      obtain ⟨tensor, rfl, htype⟩ := hfits
      exact ⟨tensor, rfl, htype⟩
  | some tensor =>
      simp only [hconstant] at hfits
      subst hfits
      rw [Typing.results_of_constant hinfer hconstant, List.singleton_inj] at hresults
      exact ⟨tensor, rfl, hresults⟩

end Buffer

namespace NodeKind

theorem variable_or_save_or_computes (kind : NodeKind) :
    kind.isVariable ∨ (∃ input output, kind = .save input output) ∨ kind.Computes := by
  cases kind <;> simp [isVariable, Computes]

end NodeKind

namespace VerifiedGraph

/-- A node that computes has one result. -/
theorem result_of_computes (verified : VerifiedGraph) {position : Nat} {node : Node}
    (hnode : verified.nodes[position]? = some node) (hkind : node.kind.Computes) :
    node.constant? = none ∧ ∃ type, node.results = [type] := by
  constructor
  · cases hnodeKind : node.kind <;> rw [hnodeKind] at hkind <;>
      simp_all [Node.constant?, Node.role?, NodeKind.Computes]
  · rcases Typing.results_of_infer (verified.inferred hnode) with ⟨⟨_, _, hsave⟩, -⟩ | ⟨-, hone⟩
    · rw [hsave] at hkind
      exact hkind.elim
    · exact hone

/-- A save writes an earlier output variable of the type of its input. -/
theorem target_of_save (verified : VerifiedGraph) {position : Nat} {node : Node}
    (hnode : verified.nodes[position]? = some node) {input : Handle} {output : Nat}
    (hkind : node.kind = .save input output) :
    output < position ∧ ∃ target type, verified.nodes[output]? = some target ∧
      target.kind = .variable .output type ∧ target.results = [type] ∧
      Typing.operand (verified.nodes.take position) input = .ok type := by
  have hinfer := verified.inferred hnode
  rw [hkind] at hinfer
  obtain ⟨target, type, htarget, htargetKind, hinput⟩ := Typing.target_of_infer_save hinfer
  rw [getElem?_take_eq] at htarget
  split at htarget
  · next hbefore =>
      have htargetInfer := verified.inferred htarget
      rw [htargetKind] at htargetInfer
      exact ⟨hbefore, target, type, htarget, htargetKind, (Except.ok.inj htargetInfer).symm,
        hinput⟩
  · cases htarget

end VerifiedGraph

namespace Engine

/-- Every node has its buffer, and the buffer fits. -/
structure FittedBy {Slot : Type} (fits : Node → Slot → Prop) (graph : VerifiedGraph)
    (buffers : Array Slot) : Prop where
  size_eq : buffers.size = graph.nodes.size
  fits : ∀ {position : Nat} {node : Node} {buffer : Slot},
    graph.nodes[position]? = some node → buffers[position]? = some buffer → fits node buffer

abbrev Fitted (graph : VerifiedGraph) (buffers : Array Buffer) : Prop :=
  FittedBy Buffer.Fits graph buffers

theorem prepared_fitted (graph : VerifiedGraph) (profiling : Bool) :
    Fitted graph (prepare graph profiling).buffers := by
  constructor
  · simp [prepare]
  · intro position node buffer hnode hbuffer
    rw [prepare, Array.getElem?_map, hnode] at hbuffer
    obtain rfl := Option.some.inj hbuffer
    exact Buffer.prepared_fits node

namespace FittedBy

variable {Slot : Type} {fits : Node → Slot → Prop} {graph : VerifiedGraph} {buffers : Array Slot}

theorem exists_buffer (hfitted : FittedBy fits graph buffers) {position : Nat} {node : Node}
    (hnode : graph.nodes[position]? = some node) :
    ∃ buffer, buffers[position]? = some buffer ∧ fits node buffer := by
  have hposition : position < buffers.size := by
    rw [hfitted.size_eq]
    exact (Array.getElem?_eq_some_iff.mp hnode).1
  have hbuffer := Array.getElem?_eq_getElem hposition
  exact ⟨buffers[position], hbuffer, hfitted.fits hnode hbuffer⟩

theorem set (hfitted : FittedBy fits graph buffers) {position : Nat} {node : Node} {buffer : Slot}
    (hnode : graph.nodes[position]? = some node) (hfits : fits node buffer) :
    FittedBy fits graph (buffers.setIfInBounds position buffer) := by
  constructor
  · rw [Array.size_setIfInBounds, hfitted.size_eq]
  · intro other otherNode otherBuffer hother hotherBuffer
    rw [Array.getElem?_setIfInBounds] at hotherBuffer
    split at hotherBuffer
    · next heq =>
        split at hotherBuffer
        · obtain rfl := Option.some.inj hotherBuffer
          subst heq
          obtain rfl : otherNode = node := Option.some.inj (hother.symm.trans hnode)
          exact hfits
        · cases hotherBuffer
    · exact hfitted.fits hother hotherBuffer

end FittedBy

namespace Fitted

variable {graph : VerifiedGraph} {buffers : Array Buffer}

/-- The bytes that an engine owns do not depend on what it has run. -/
theorem ownedBytes_eq (hfitted : Fitted graph buffers) :
    buffers.toList.map Buffer.ownedBytes =
      graph.nodes.toList.map fun node => (Buffer.prepared node).ownedBytes := by
  refine List.ext_getElem? fun position => ?_
  simp only [List.getElem?_map, Array.getElem?_toList]
  cases hnode : graph.nodes[position]? with
  | none =>
      have hbuffer : buffers[position]? = none := by
        rw [Array.getElem?_eq_none_iff] at hnode ⊢
        rwa [hfitted.size_eq]
      rw [hbuffer]
      rfl
  | some node =>
      obtain ⟨buffer, hbuffer, hfits⟩ := hfitted.exists_buffer hnode
      simp only [hbuffer, Option.map_some, hfits.ownedBytes_eq]

/-- An operand that types before a position can be read there, with its type. -/
theorem exists_readOperand (hfitted : Fitted graph buffers) {position : Nat} {value : Handle}
    {type : TensorType}
    (hvalue : Typing.operand (graph.nodes.take position) value = .ok type) :
    ∃ tensor, readOperand buffers position value = .ok tensor ∧ tensor.type = type := by
  obtain ⟨hbefore, hall⟩ := Typing.operand_of_operand_take hvalue
  obtain ⟨node, hnode, hresult⟩ := Typing.operand_eq_ok_iff.mp hall
  obtain ⟨buffer, hbuffer, hfits⟩ := hfitted.exists_buffer hnode
  obtain ⟨tensor, htensor, htype⟩ := hfits.exists_tensor (graph.inferred hnode) hresult
  refine ⟨tensor, ?_, htype⟩
  simp only [readOperand, if_pos hbefore, hbuffer, Option.bind_some, htensor]

theorem type_of_readOperand (hfitted : Fitted graph buffers) {position : Nat} {value : Handle}
    {type : TensorType} {tensor : Tensor}
    (hvalue : Typing.operand (graph.nodes.take position) value = .ok type)
    (hread : readOperand buffers position value = .ok tensor) :
    tensor.type = type := by
  obtain ⟨found, hfound, htype⟩ := hfitted.exists_readOperand hvalue
  obtain rfl : found = tensor := Except.ok.inj (hfound.symm.trans hread)
  exact htype

end Fitted

/-! ## One node -/

theorem executeNode_of_computes {node : Node} (hkind : node.kind.Computes) (position : Nat)
    {buffers : Array Buffer} {current : Tensor}
    (hcurrent : buffers[position]? = some (.owned current)) :
    executeNode node position buffers =
      (applyKernel node.kind (readOperand buffers position) current >>= fun tensor =>
        .ok (tensor.sizeBytes, buffers.setIfInBounds position (.owned tensor))) := by
  unfold executeNode
  split
  · next hsave =>
      rw [hsave] at hkind
      exact hkind.elim
  · rw [hcurrent]
    rfl

theorem executeNode_of_save {node : Node} {input : Handle} {output : Nat}
    (hkind : node.kind = .save input output) {position : Nat} (hbefore : output < position)
    (buffers : Array Buffer) :
    executeNode node position buffers =
      (readOperand buffers position input >>= fun tensor =>
        .ok (tensor.sizeBytes, buffers.setIfInBounds output (.owned tensor))) := by
  unfold executeNode
  split
  · next hsave =>
      rw [hkind] at hsave
      obtain ⟨rfl, rfl⟩ := NodeKind.save.inj hsave
      simp only [if_pos hbefore]
      rfl
  · next hsave => exact absurd hkind (hsave _ _)

end Engine
end NetImport
