import NetImport.Execution.Raw
import NetImport.Proofs.Execution.Evaluation
import NetImport.Proofs.Execution.Words

/-!
# Type soundness on storage

Bindings are compared by type, so a run may be handed storage of any length.  The types hold
even then: a run that comes to its end has counted the nodes and bytes that the types say, and
its output variables have their types.  When the storage that is bound to the placeholders is
well-formed, a run comes to the same as one on tensors, whatever was bound in earlier runs.
-/

namespace NetImport

open InPlace (Stop Storage)

/-! ## Tensors and storage -/

theorem InPlace.Storage.tensor?_eq_some_iff {storage : Storage} {tensor : Tensor} :
    storage.tensor? = some tensor ↔ storage = tensor.storage := by
  unfold tensor?
  split
  · next hsize =>
      constructor
      · intro hsome
        obtain rfl := Option.some.inj hsome
        rfl
      · rintro rfl
        rfl
  · next hsize =>
      simp only [reduceCtorEq, false_iff]
      rintro rfl
      exact hsize tensor.size_eq

@[simp] theorem Tensor.tensor?_storage (tensor : Tensor) :
    tensor.storage.tensor? = some tensor :=
  InPlace.Storage.tensor?_eq_some_iff.mpr rfl

theorem Tensor.wellFormed_storage (tensor : Tensor) : tensor.storage.WellFormed :=
  tensor.size_eq

theorem InPlace.Storage.WellFormed.exists_tensor {storage : Storage}
    (hstorage : storage.WellFormed) :
    ∃ tensor : Tensor, storage = tensor.storage :=
  ⟨⟨storage.dtype, storage.shape, storage.data, hstorage⟩, rfl⟩

/-! ## Kernels -/

namespace RawKernel

variable {bits : Nat} {rest : RawKernel} {kind : NodeKind} {defined : Array Node}
  {read : Handle → Except TensorError Storage} {output result : Storage}

/-- What a kernel leaves has the type of what was there, and as many elements. -/
def KeepsStorage (kernel : RawKernel) : Prop :=
  ∀ (kind : NodeKind) (read : Handle → Except TensorError Storage) (output result : Storage),
    kernel kind read output = .ok result →
    result.type = output.type ∧ result.data.size = output.data.size

theorem readTensor_eq_ok_iff {value : Handle} {tensor : Tensor} :
    readTensor read value = .ok tensor ↔ read value = .ok tensor.storage := by
  unfold readTensor
  cases hread : read value with
  | error cause => simp
  | ok storage =>
      rw [ok_bind, Except.ok.injEq]
      cases hstorage : storage.tensor? with
      | none =>
          simp only [reduceCtorEq, false_iff]
          rintro rfl
          simp at hstorage
      | some found =>
          rw [InPlace.Storage.tensor?_eq_some_iff] at hstorage
          subst hstorage
          rw [pure_eq_ok_iff]
          constructor
          · rintro rfl
            rfl
          · intro hsame
            have hfound := congrArg InPlace.Storage.tensor? hsame
            simpa using hfound

/-- The kernel of a typed node keeps well-formed storage well-formed, and of its type. -/
theorem inWords_preserves (hrest : rest.KeepsStorage) (hkind : kind.Computes)
    (hwords : kind.FitsWords bits defined)
    (hread : ∀ value ∈ kind.operands, ∀ storage, read value = .ok storage →
      Typing.operand defined value = .ok storage.type)
    (hdims : ∀ dims, kind.declaredDims? = some dims → output.shape = ⟨dims⟩)
    (houtput : output.WellFormed) (hdone : inWords bits rest kind read output = .ok result) :
    result.type = output.type ∧ result.WellFormed := by
  obtain ⟨tensor, rfl⟩ := houtput.exists_tensor
  simp only [inWords, Tensor.tensor?_storage] at hdone
  split at hdone
  · have hoperands : ∀ value ∈ kind.operands, ∀ found, readTensor read value = .ok found →
        Typing.operand defined value = .ok found.type :=
      fun value hvalue found hfound => hread value hvalue _ (readTensor_eq_ok_iff.mp hfound)
    rw [Engine.applyKernelInWords_eq hoperands hdims hwords] at hdone
    cases happlied : Engine.applyKernel kind (readTensor read) tensor with
    | error cause =>
        rw [happlied] at hdone
        cases hdone
    | ok written =>
        rw [happlied] at hdone
        obtain rfl := Except.ok.inj hdone
        exact ⟨(Engine.applyKernel_fillsOutput hkind _).keepsType happlied,
          written.wellFormed_storage⟩
  · obtain ⟨htype, hsize⟩ := hrest _ _ _ _ hdone
    refine ⟨htype, ?_⟩
    have hshape : result.shape = tensor.storage.shape := congrArg TensorType.shape htype
    rw [InPlace.Storage.WellFormed, hsize, hshape]
    exact tensor.size_eq

/-- On well-formed operands a kernel leaves what it leaves for the tensors. -/
theorem inWords_eq (rest : RawKernel) (hwords : kind.FitsWords bits defined)
    (hread : ∀ value ∈ kind.operands, ∃ tensor : Tensor, read value = .ok tensor.storage ∧
      Typing.operand defined value = .ok tensor.type) {tensor : Tensor}
    (hdims : ∀ dims, kind.declaredDims? = some dims → tensor.shape = ⟨dims⟩) :
    inWords bits rest kind read tensor.storage =
      Tensor.storage <$>
        (liftM (Engine.applyKernel kind (readTensor read) tensor) : Except Stop Tensor) := by
  have hwell : operandsWellFormed kind read = true := by
    refine List.all_eq_true.mpr fun value hvalue => ?_
    obtain ⟨found, hfound, -⟩ := hread value hvalue
    simpa only [hfound, decide_eq_true_eq] using found.wellFormed_storage
  simp only [inWords, Tensor.tensor?_storage, hwell, if_true]
  refine congrArg (Tensor.storage <$> ·)
    (Engine.applyKernelInWords_eq (fun value hvalue found hfound => ?_) hdims hwords)
  obtain ⟨other, hother, htype⟩ := hread value hvalue
  rw [readTensor_eq_ok_iff.mpr hother] at hfound
  rw [htype, Except.ok.inj hfound]

end RawKernel

/-! ## Bindings -/

namespace RawBindings

variable {bindings : RawBindings}

/-- Storage of the type of a placeholder is bound to its name, with any number of elements. -/
def Supplies (bindings : RawBindings) (placeholder : Node) : Prop :=
  ∃ storage, bindings.get? placeholder.name = some storage ∧
    placeholder.kind = .variable .placeholder storage.type

/-- Storage that is bound to one of the placeholders is well-formed. -/
def WellFormedOn (bindings : RawBindings) (placeholders : List (Nat × Node)) : Prop :=
  ∀ placeholder ∈ placeholders, ∀ storage,
    bindings.get? placeholder.2.name = some storage → storage.WellFormed

/-- The tensor under a name is what is bound to it, if that is well-formed. -/
theorem get?_eq_tensors {name : String}
    (hwell : ∀ storage, bindings.get? name = some storage → storage.WellFormed) :
    bindings.get? name = (bindings.tensors.get? name).map Tensor.storage := by
  obtain ⟨entries⟩ := bindings
  simp only [get?, tensors, Bindings.get?] at hwell ⊢
  induction entries with
  | nil => rfl
  | cons entry entries ih =>
      by_cases hname : entry.1 = name
      · obtain ⟨tensor, htensor⟩ := (hwell entry.2 (by simp [hname])).exists_tensor
        simp [htensor, hname]
      · rw [List.find?_cons_of_neg (by simpa using hname)] at hwell ⊢
        cases hentry : entry.2.tensor? with
        | none => simpa [hentry] using ih hwell
        | some found => simpa [hentry, hname] using ih hwell

theorem supplies_tensors {placeholders : List (Nat × Node)}
    (hwell : bindings.WellFormedOn placeholders) {placeholder : Nat × Node}
    (hmem : placeholder ∈ placeholders) (hsupplied : bindings.Supplies placeholder.2) :
    bindings.tensors.Supplies placeholder.2 := by
  obtain ⟨storage, hbound, hkind⟩ := hsupplied
  rw [get?_eq_tensors (hwell placeholder hmem), Option.map_eq_some_iff] at hbound
  obtain ⟨tensor, htensor, rfl⟩ := hbound
  exact ⟨tensor, htensor, hkind⟩

end RawBindings

namespace RawBuffer

/-- A buffer that a node can have between runs.  Only a node that computes is known to have a
well-formed one: storage in the others comes from bindings. -/
def Fits (node : Node) (buffer : RawBuffer) : Prop :=
  match node.constant?, node.results with
  | some tensor, _ => buffer = .shared tensor
  | none, type :: _ => ∃ storage, buffer = .owned storage ∧ storage.type = type ∧
      (node.kind.Computes → storage.WellFormed)
  | none, [] => buffer = .empty

theorem fits_iff_of_result {node : Node} {type : TensorType} {buffer : RawBuffer}
    (hconstant : node.constant? = none) (hresults : node.results = [type]) :
    buffer.Fits node ↔ ∃ storage, buffer = .owned storage ∧ storage.type = type ∧
      (node.kind.Computes → storage.WellFormed) := by
  simp only [Fits, hconstant, hresults]

theorem prepared_fits {bits : Nat} {node : Node}
    (hwords : ∀ type ∈ node.results, type.sizeBytes < twoPow bits) :
    (prepared bits node).Fits node := by
  unfold Fits prepared
  cases node.constant? with
  | some tensor => rfl
  | none =>
      cases hresults : node.results with
      | nil => rfl
      | cons type rest =>
          refine ⟨_, rfl, rfl, fun _ => ?_⟩
          have hsize := hwords type (by simp [hresults])
          have hbytes : 0 < type.dtype.sizeBytes := by cases type.dtype <;> decide
          have hcount : type.shape.count < twoPow bits :=
            (Nat.le_mul_of_pos_right _ hbytes).trans_lt hsize
          rw [InPlace.Storage.WellFormed, Array.size_replicate, Shape.countInWords_eq_hold,
            Word.hold_eq hcount]

theorem Fits.exists_storage {node : Node} {buffer : RawBuffer} {defined : Array Node}
    (hfits : buffer.Fits node) (hinfer : Typing.infer node.kind defined = .ok node.results)
    {result : Nat} {type : TensorType} (hresult : node.results[result]? = some type) :
    ∃ storage, buffer.storage? = some storage ∧ storage.type = type := by
  have hresults := Typing.results_of_result hinfer hresult
  unfold Fits at hfits
  cases hconstant : node.constant? with
  | none =>
      simp only [hconstant, hresults] at hfits
      obtain ⟨storage, rfl, htype, -⟩ := hfits
      exact ⟨storage, rfl, htype⟩
  | some tensor =>
      simp only [hconstant] at hfits
      subst hfits
      rw [Typing.results_of_constant hinfer hconstant, List.singleton_inj] at hresults
      exact ⟨tensor.storage, rfl, hresults⟩

end RawBuffer

namespace RawEngine

variable {bindings : RawBindings}

theorem boundStorage_eq_ok_iff {node : Node} {storage : Storage} :
    boundStorage bindings node = .ok storage ↔
      bindings.get? node.name = some storage ∧ node.results.head? = some storage.type := by
  unfold boundStorage
  split
  · next hnone => simp [hnone]
  · next found hfound =>
      split
      · next htype =>
          simp only [Except.ok.injEq, hfound, Option.some.injEq]
          exact ⟨fun heq => ⟨heq, heq ▸ htype⟩, fun heq => heq.1⟩
      · next htype =>
          simp only [reduceCtorEq, hfound, Option.some.injEq, false_iff, not_and]
          exact fun heq => heq ▸ htype

theorem name_of_boundStorage_eq_error {node : Node} {error : RunError}
    (herror : boundStorage bindings node = .error error) :
    ∃ detail, error = .binding node.name detail := by
  unfold boundStorage at herror
  split at herror
  · exact ⟨_, (Except.error.inj herror).symm⟩
  · split at herror
    · cases herror
    · exact ⟨_, (Except.error.inj herror).symm⟩

theorem exists_boundStorage_iff {graph : VerifiedGraph} {placeholder : Nat × Node}
    (hmem : placeholder ∈ graph.placeholders) :
    (∃ storage, boundStorage bindings placeholder.2 = .ok storage) ↔
      bindings.Supplies placeholder.2 := by
  obtain ⟨hnode, hplaceholder⟩ := VerifiedGraph.mem_placeholders_iff.mp hmem
  obtain ⟨type, hkind⟩ := Node.isPlaceholder_iff.mp hplaceholder
  have hresults := graph.results_of_variable hnode hkind
  refine exists_congr fun storage => ?_
  rw [boundStorage_eq_ok_iff, hresults, hkind]
  simp

theorem bindPlaceholders_eq_ok_iff {graph : VerifiedGraph} {buffers : Array RawBuffer} :
    (bindPlaceholders bindings graph.placeholders buffers).1 = .ok () ↔
      ∀ placeholder ∈ graph.placeholders, bindings.Supplies placeholder.2 := by
  rw [bindPlaceholders, Engine.bindEach_fst]
  exact forM_asked_eq_ok_iff fun _ => exists_boundStorage_iff

theorem bindPlaceholders_eq_error {graph : VerifiedGraph} {buffers : Array RawBuffer}
    {error : RunError}
    (herror : (bindPlaceholders bindings graph.placeholders buffers).1 = .error error) :
    FirstMissing bindings.Supplies graph.placeholders error := by
  rw [bindPlaceholders, Engine.bindEach_fst] at herror
  exact firstMissing_of_forM_asked (fun _ => exists_boundStorage_iff)
    (fun _ _ => name_of_boundStorage_eq_error) herror

/-! ## Preservation -/

abbrev Fitted (graph : VerifiedGraph) (buffers : Array RawBuffer) : Prop :=
  Engine.FittedBy RawBuffer.Fits graph buffers

theorem prepared_fitted {graph : VerifiedGraph} {bits : Nat}
    (hwords : graph.graph.FitsWords bits) (profiling : Bool) :
    Fitted graph (prepare bits graph profiling).buffers := by
  constructor
  · simp [prepare]
  · intro position node buffer hnode hbuffer
    rw [prepare, Array.getElem?_map, hnode] at hbuffer
    obtain rfl := Option.some.inj hbuffer
    exact RawBuffer.prepared_fits (hwords node (Array.mem_of_getElem? hnode)).2

theorem executeNode_of_computes {kernel : RawKernel} {node : Node} (hkind : node.kind.Computes)
    (position : Nat) {buffers : Array RawBuffer} {current : Storage}
    (hcurrent : buffers[position]? = some (.owned current)) :
    executeNode kernel node position buffers =
      (kernel node.kind (readOperand buffers position) current >>= fun storage =>
        .ok (storage.type.sizeBytes, buffers.setIfInBounds position (.owned storage))) := by
  unfold executeNode
  split
  · next hsave =>
      rw [hsave] at hkind
      exact hkind.elim
  · rw [hcurrent]
    rfl

theorem executeNode_of_save {kernel : RawKernel} {node : Node} {input : Handle} {output : Nat}
    (hkind : node.kind = .save input output) {position : Nat} (hbefore : output < position)
    (buffers : Array RawBuffer) :
    executeNode kernel node position buffers =
      ((liftM (readOperand buffers position input) : Except Stop Storage) >>= fun storage =>
        .ok (storage.type.sizeBytes, buffers.setIfInBounds output (.owned storage))) := by
  unfold executeNode
  split
  · next hsave =>
      rw [hkind] at hsave
      obtain ⟨rfl, rfl⟩ := NodeKind.save.inj hsave
      simp only [if_pos hbefore]
      rfl
  · next hsave => exact absurd hkind (hsave _ _)

namespace Fitted

variable {graph : VerifiedGraph} {buffers : Array RawBuffer} {bits : Nat} {rest : RawKernel}
  {position : Nat} {node : Node}

theorem bindPlaceholders (hfitted : Fitted graph buffers) :
    Fitted graph (bindPlaceholders bindings graph.placeholders buffers).2 := by
  refine Engine.FittedBy.bindEach (fun _ hmem => hmem) ?_ hfitted
  rintro ⟨position, node⟩ hmem storage hbound
  obtain ⟨hnode, hplaceholder⟩ := VerifiedGraph.mem_placeholders_iff.mp hmem
  obtain ⟨type, hkind⟩ := Node.isPlaceholder_iff.mp hplaceholder
  have hresults := graph.results_of_variable hnode hkind
  have htype := (boundStorage_eq_ok_iff.mp hbound).2
  rw [hresults, List.head?_cons, Option.some.injEq] at htype
  have hconstant : node.constant? = none := by
    simp [Node.constant?, Node.role?, hkind]
  refine (RawBuffer.fits_iff_of_result hconstant hresults).mpr
    ⟨storage, rfl, htype.symm, fun hcomputes => ?_⟩
  simp only [hkind, NodeKind.Computes] at hcomputes

/-- An operand that types before a position can be read there, with its type. -/
theorem exists_readOperand (hfitted : Fitted graph buffers) {value : Handle} {type : TensorType}
    (hvalue : Typing.operand (graph.nodes.take position) value = .ok type) :
    ∃ storage, readOperand buffers position value = .ok storage ∧ storage.type = type := by
  obtain ⟨hbefore, hall⟩ := Typing.operand_of_operand_take hvalue
  obtain ⟨source, hsource, hresult⟩ := Typing.operand_eq_ok_iff.mp hall
  obtain ⟨buffer, hbuffer, hfits⟩ := hfitted.exists_buffer hsource
  obtain ⟨storage, hstorage, htype⟩ := hfits.exists_storage (graph.inferred hsource) hresult
  refine ⟨storage, ?_, htype⟩
  simp only [readOperand, if_pos hbefore, hbuffer, Option.bind_some, hstorage]

/-- What a node reads has the type that typing looks up. -/
theorem operand_of_readOperand (hfitted : Fitted graph buffers)
    (hnode : graph.nodes[position]? = some node) {value : Handle}
    (hvalue : value ∈ node.kind.operands) {storage : Storage}
    (hread : readOperand buffers position value = .ok storage) :
    Typing.operand graph.nodes value = .ok storage.type := by
  obtain ⟨type, htype⟩ := Typing.operand_of_infer (graph.inferred hnode) hvalue
  obtain ⟨found, hfound, rfl⟩ := hfitted.exists_readOperand htype
  obtain rfl : found = storage := Except.ok.inj (hfound.symm.trans hread)
  exact (Typing.operand_of_operand_take htype).2

/-- The buffer of a node that computes, which is written over. -/
theorem exists_current (hfitted : Fitted graph buffers)
    (hnode : graph.nodes[position]? = some node) (hkind : node.kind.Computes) :
    ∃ current : Tensor, buffers[position]? = some (.owned current.storage) ∧
      node.results = [current.type] ∧
      ∀ dims, node.kind.declaredDims? = some dims → current.shape = ⟨dims⟩ := by
  obtain ⟨hconstant, type, hresults⟩ := graph.result_of_computes hnode hkind
  obtain ⟨buffer, hbuffer, hfits⟩ := hfitted.exists_buffer hnode
  obtain ⟨storage, rfl, rfl, hwell⟩ :=
    (RawBuffer.fits_iff_of_result hconstant hresults).mp hfits
  obtain ⟨current, rfl⟩ := (hwell hkind).exists_tensor
  have hinfer := graph.inferred hnode
  rw [hresults] at hinfer
  exact ⟨current, hbuffer, hresults, fun dims => Typing.shape_of_declaredDims hinfer⟩

/-- Preservation: an executed node leaves fitting buffers, and counts the bytes of its
type. -/
theorem executeNode (hrest : rest.KeepsStorage) (hwords : graph.graph.FitsWords bits)
    (hfitted : Fitted graph buffers) {bytes : Nat} {next : Array RawBuffer}
    (hnode : graph.nodes[position]? = some node) (hvariable : node.isVariable = false)
    (hdone : executeNode (RawKernel.inWords bits rest) node position buffers =
      .ok (bytes, next)) :
    Fitted graph next ∧ bytes = graph.graph.writtenBytes node := by
  rcases node.kind.variable_or_save_or_computes with hkind | ⟨input, output, hkind⟩ | hkind
  · exact absurd hkind (by simpa [Node.isVariable] using hvariable)
  · obtain ⟨hbefore, target, type, htarget, htargetKind, hresults, hinput⟩ :=
      graph.target_of_save hnode hkind
    obtain ⟨storage, hread, htype⟩ := hfitted.exists_readOperand hinput
    rw [executeNode_of_save hkind hbefore, hread] at hdone
    obtain ⟨rfl, rfl⟩ := Prod.mk.inj (Except.ok.inj hdone)
    have hconstant : target.constant? = none := by
      simp [Node.constant?, Node.role?, htargetKind]
    constructor
    · refine hfitted.set htarget ((RawBuffer.fits_iff_of_result hconstant hresults).mpr
        ⟨storage, rfl, htype, fun hcomputes => ?_⟩)
      simp only [htargetKind, NodeKind.Computes] at hcomputes
    · rw [Graph.writtenBytes_of_save hkind (Typing.operand_of_operand_take hinput).2, htype]
  · obtain ⟨current, hbuffer, hresults, hdims⟩ := hfitted.exists_current hnode hkind
    rw [executeNode_of_computes hkind position hbuffer, bind_eq_ok_iff] at hdone
    obtain ⟨storage, hkernel, hwritten⟩ := hdone
    obtain ⟨rfl, rfl⟩ := Prod.mk.inj (Except.ok.inj hwritten)
    obtain ⟨htype, hwell⟩ := RawKernel.inWords_preserves hrest hkind
      (hwords node (Array.mem_of_getElem? hnode)).1
      (fun value hvalue found => hfitted.operand_of_readOperand hnode hvalue) hdims
      current.wellFormed_storage hkernel
    have hconstant := (graph.result_of_computes hnode hkind).1
    constructor
    · exact hfitted.set hnode ((RawBuffer.fits_iff_of_result hconstant hresults).mpr
        ⟨storage, rfl, htype, fun _ => hwell⟩)
    · rw [Graph.writtenBytes_of_result hkind hresults, htype]
      rfl

theorem executeStep_preserves (hrest : rest.KeepsStorage)
    (hwords : graph.graph.FitsWords bits) :
    Engine.Preserves RawBuffer.Fits graph (executeStep (RawKernel.inWords bits rest)) :=
  fun hnode hvariable hfitted hdone =>
    Fitted.executeNode hrest hwords hfitted hnode hvariable (mapError_eq_ok_iff.mp hdone)

end Fitted

/-! ## Values -/

section Values

variable {verified : VerifiedGraph} {tensors : Bindings} {buffers : Array RawBuffer} {bits : Nat}
  {rest : RawKernel} {count : Nat} {node : Node}

/-- The tensors that the buffers hold, by position. -/
def held (buffers : Array RawBuffer) (position : Nat) : Option Tensor :=
  (buffers[position]?.bind RawBuffer.storage?).bind Storage.tensor?

theorem held_eq_some_iff {position : Nat} {tensor : Tensor} :
    held buffers position = some tensor ↔
      buffers[position]?.bind RawBuffer.storage? = some tensor.storage := by
  rw [held, Option.bind_eq_some_iff]
  constructor
  · rintro ⟨storage, hstorage, htensor⟩
    rw [hstorage, InPlace.Storage.tensor?_eq_some_iff.mp htensor]
  · intro hstorage
    exact ⟨tensor.storage, hstorage, tensor.tensor?_storage⟩

theorem held_set (buffers : Array RawBuffer) (target : Nat) (tensor : Tensor) {position : Nat} :
    held (buffers.setIfInBounds target (.owned tensor.storage)) position =
      if position = target ∧ target < buffers.size then some tensor
      else held buffers position := by
  unfold held
  rw [Array.getElem?_setIfInBounds]
  by_cases htarget : target = position
  · subst htarget
    by_cases hinside : target < buffers.size
    · simp [hinside, RawBuffer.storage?]
    · simp [hinside]
  · simp [htarget, Ne.symm htarget]

/-- A node that is executed reads the values of its operands. -/
theorem exists_operandValue (hbuilt : verified.graph.Built)
    (hsettled : verified.graph.Settled tensors (held buffers) count)
    (hnode : verified.nodes[count]? = some node) {value : Handle}
    (hvalue : value ∈ node.kind.operands) :
    ∃ tensor : Tensor, readOperand buffers count value = .ok tensor.storage ∧
      verified.graph.valueBefore tensors count value = .ok tensor := by
  obtain ⟨hbefore, tensor, hheld, hread⟩ := hsettled.operand hbuilt hnode hvalue
  refine ⟨tensor, ?_, hread⟩
  rw [readOperand, if_pos hbefore, held_eq_some_iff.mp hheld]

/-- Executing a node writes the value of its target. -/
theorem executeNode_eq_evaluate (rest : RawKernel) (hbuilt : verified.graph.Built)
    (hwords : verified.graph.FitsWords bits) (hfitted : Fitted verified buffers)
    (hsettled : verified.graph.Settled tensors (held buffers) count)
    (hnode : verified.nodes[count]? = some node) (hvariable : node.isVariable = false) :
    executeNode (RawKernel.inWords bits rest) node count buffers =
      ((liftM (verified.graph.evaluate tensors (node.target count)) : Except Stop Tensor) >>=
        fun tensor => .ok (tensor.sizeBytes,
          buffers.setIfInBounds (node.target count) (.owned tensor.storage))) := by
  have hread {value : Handle} (hvalue : value ∈ node.kind.operands) :=
    exists_operandValue hbuilt hsettled hnode hvalue
  rcases node.kind.variable_or_save_or_computes with hkind | ⟨input, output, hkind⟩ | hkind
  · exact absurd hkind (by simpa [Node.isVariable] using hvariable)
  · obtain ⟨hbefore, -⟩ := verified.target_of_save hnode hkind
    obtain ⟨tensor, hstorage, hvalue⟩ := @hread input (by simp [hkind, NodeKind.operands])
    rw [executeNode_of_save hkind hbefore, hstorage,
      Engine.evaluate_target_of_save hbuilt hnode hkind, hvalue, Node.target_of_save hkind]
    rfl
  · obtain ⟨current, hbuffer, hresults, hdims⟩ := hfitted.exists_current hnode hkind
    have hconstant := (verified.result_of_computes hnode hkind).1
    have hfits : Buffer.Fits node (.owned current) :=
      (Buffer.fits_iff_of_result hconstant hresults).mpr ⟨current, rfl, rfl⟩
    have hkernel := RawKernel.inWords_eq rest (hwords node (Array.mem_of_getElem? hnode)).1
      (fun value hvalue => by
        obtain ⟨tensor, hstorage, -⟩ := hread hvalue
        exact ⟨tensor, hstorage, hfitted.operand_of_readOperand hnode hvalue hstorage⟩) hdims
    have hagree : ∀ value ∈ node.kind.operands,
        RawKernel.readTensor (readOperand buffers count) value =
          verified.graph.valueBefore tensors count value := by
      intro value hvalue
      obtain ⟨tensor, hstorage, hbefore⟩ := hread hvalue
      rw [hbefore, RawKernel.readTensor_eq_ok_iff.mpr hstorage]
    rw [executeNode_of_computes hkind count hbuffer, hkernel,
      Engine.evaluate_target_of_computes hnode hkind hfits, Node.target_of_computes hkind,
      Engine.applyKernel_congr_read hagree]
    cases Engine.applyKernel node.kind (verified.graph.valueBefore tensors count) current <;> rfl

/-- Executing a node evaluates its target. -/
theorem executeStep_evaluates (hbuilt : verified.graph.Built)
    (hwords : verified.graph.FitsWords bits) :
    Engine.Evaluates RawBuffer.Fits verified tensors held RunStop.refused
      (executeStep (RawKernel.inWords bits rest)) := by
  intro count node buffers hnode hvariable hfitted hsettled
  have hexecute := executeNode_eq_evaluate rest hbuilt hwords hfitted hsettled hnode hvariable
  cases hvalue : verified.graph.evaluate tensors (node.target count) with
  | error cause =>
      rw [hvalue] at hexecute
      simp only [executeStep, hexecute]
      rfl
  | ok tensor =>
      rw [hvalue] at hexecute
      refine ⟨_, by rw [executeStep, hexecute]; rfl, ?_⟩
      refine hsettled.afterExecution hbuilt hnode hvalue (fun other hother => ?_)
        fun position hposition => ?_
      · have hinside := (Array.getElem?_eq_some_iff.mp hother).1
        rw [held_set, if_pos ⟨rfl, hfitted.size_eq ▸ hinside⟩]
      · rw [held_set, if_neg fun hwritten => hposition hwritten.1]

/-- What is bound to a placeholder is the tensor that is bound to it, if it is well-formed. -/
theorem boundStorage_eq (hwell : bindings.WellFormedOn verified.placeholders)
    {placeholder : Nat × Node} (hmem : placeholder ∈ verified.placeholders) :
    boundStorage bindings placeholder.2 =
      Tensor.storage <$> Engine.boundTensor bindings.tensors placeholder.2 := by
  rw [boundStorage, RawBindings.get?_eq_tensors (hwell placeholder hmem), Engine.boundTensor]
  cases bindings.tensors.get? placeholder.2.name with
  | none => rfl
  | some tensor =>
      have htype : tensor.storage.type = tensor.type := rfl
      simp only [Option.map_some, htype]
      split <;> rfl

theorem bindPlaceholders_fst (hwell : bindings.WellFormedOn verified.placeholders)
    (buffers : Array RawBuffer) :
    (bindPlaceholders bindings verified.placeholders buffers).1 =
      verified.placeholders.forM fun placeholder =>
        Engine.boundTensor bindings.tensors placeholder.2 >>= fun _ => .ok () := by
  rw [bindPlaceholders, Engine.bindEach_fst]
  refine forM_congr fun placeholder hmem => ?_
  rw [boundStorage_eq hwell hmem]
  cases Engine.boundTensor bindings.tensors placeholder.2 <;> rfl

/-- Once well-formed storage is bound to its placeholders, an engine has settled the variables
that are no outputs, whatever the other buffers hold. -/
theorem settled_of_bound (hwell : bindings.WellFormedOn verified.placeholders)
    (hfitted : Fitted verified buffers)
    (hok : (bindPlaceholders bindings verified.placeholders buffers).1 = .ok ()) :
    verified.graph.Settled bindings.tensors
      (held (bindPlaceholders bindings verified.placeholders buffers).2) 0 := by
  refine .of_variables ?_ ?_
  · intro position node tensor hnode hconstant
    obtain ⟨buffer, hbuffer, hfits⟩ := hfitted.bindPlaceholders.exists_buffer hnode
    simp only [RawBuffer.Fits, hconstant] at hfits
    subst hfits
    rw [held_eq_some_iff, hbuffer]
    rfl
  · intro placeholder hmem
    obtain ⟨storage, hgiven, hbuffer⟩ :=
      Engine.bindEach_bound (fun _ hmem => hmem) hfitted.size_eq hok hmem (.inl hmem)
    rw [boundStorage_eq hwell hmem, map_eq_ok_iff] at hgiven
    obtain ⟨tensor, hbound, rfl⟩ := hgiven
    refine ⟨tensor, (Engine.boundTensor_eq_ok_iff.mp hbound).1, ?_⟩
    rw [held_eq_some_iff, bindPlaceholders, hbuffer]
    rfl

theorem readOutputs_eq_outputValues (hbuilt : verified.graph.Built)
    (hsettled : verified.graph.Settled tensors (held buffers) verified.nodes.size) :
    readOutputs verified buffers =
      (verified.outputValues tensors).map fun entry => (entry.1, entry.2.storage) := by
  rw [← (hsettled.outputValues_eq hbuilt).1, List.map_filterMap]
  refine List.filterMap_congr fun output hmem => ?_
  obtain ⟨tensor, hheld, -⟩ := hsettled.output_value hbuilt hmem
  simp only [hheld, held_eq_some_iff.mp hheld, Option.map_some]

end Values

/-! ## Runs -/

section Runs

variable {verified : VerifiedGraph} {profiling : Bool} {buffers : Array RawBuffer} {bits : Nat}
  {rest : RawKernel}

theorem run_cases (kernel : RawKernel) (verified : VerifiedGraph) (profiling : Bool)
    (buffers : Array RawBuffer) (bindings : RawBindings) :
    (∃ error bound, bindPlaceholders bindings verified.placeholders buffers =
        (.error error, bound) ∧
      run kernel ⟨verified, profiling, buffers⟩ bindings =
        (.error (.refused error), ⟨verified, profiling, bound⟩)) ∨
    ∃ bound, bindPlaceholders bindings verified.placeholders buffers = (.ok (), bound) ∧
      ((∃ stop last, executeNodes kernel profiling verified.nodes.toList.zipIdx bound .empty =
          (.error stop, last) ∧
        run kernel ⟨verified, profiling, buffers⟩ bindings =
          (.error stop, ⟨verified, profiling, last⟩)) ∨
      ∃ metrics last, executeNodes kernel profiling verified.nodes.toList.zipIdx bound .empty =
          (.ok metrics, last) ∧
        run kernel ⟨verified, profiling, buffers⟩ bindings =
          (.ok ⟨readOutputs verified last, metrics⟩, ⟨verified, profiling, last⟩)) := by
  rcases hbind : bindPlaceholders bindings verified.placeholders buffers with ⟨error | ⟨⟩, bound⟩
  · exact .inl ⟨error, bound, rfl, by simp only [run, hbind]⟩
  · refine .inr ⟨bound, rfl, ?_⟩
    rcases hexecute : executeNodes kernel profiling verified.nodes.toList.zipIdx bound .empty with
      ⟨stop | metrics, last⟩
    · exact .inl ⟨stop, last, rfl, by simp only [run, hbind, hexecute]⟩
    · exact .inr ⟨metrics, last, rfl, by simp only [run, hbind, hexecute]⟩

theorem Fitted.of_bindPlaceholders (hfitted : Fitted verified buffers)
    {outcome : Except RunError Unit} {bound : Array RawBuffer}
    (hbind : RawEngine.bindPlaceholders bindings verified.placeholders buffers =
      (outcome, bound)) :
    Fitted verified bound := by
  have hbound : Fitted verified
      (RawEngine.bindPlaceholders bindings verified.placeholders buffers).2 :=
    hfitted.bindPlaceholders
  rwa [hbind] at hbound

theorem Fitted.executeNodes (hrest : rest.KeepsStorage) (hwords : verified.graph.FitsWords bits)
    (hfitted : Fitted verified buffers) {outcome : Except RunStop Metrics}
    {last : Array RawBuffer}
    (hexecute : RawEngine.executeNodes (.inWords bits rest) profiling
      verified.nodes.toList.zipIdx buffers .empty = (outcome, last)) :
    Fitted verified last ∧ ∀ metrics, outcome = .ok metrics →
      metrics = verified.graph.account profiling verified.graph.executedNodes .empty := by
  have hnodes := Engine.FittedBy.executeEach (Fitted.executeStep_preserves hrest hwords) profiling
    (Engine.mem_zipIdx_nodes verified) hfitted .empty
  rw [RawEngine.executeNodes] at hexecute
  rw [hexecute, List.zipIdx_map_fst] at hnodes
  exact hnodes

/-- A run leaves the graph alone and the buffers fitting. -/
theorem Fitted.run (hrest : rest.KeepsStorage) (hwords : verified.graph.FitsWords bits)
    (hfitted : Fitted verified buffers) (bindings : RawBindings) :
    ∃ next, (RawEngine.run (.inWords bits rest) ⟨verified, profiling, buffers⟩ bindings).2 =
      ⟨verified, profiling, next⟩ ∧ Fitted verified next := by
  rcases run_cases (.inWords bits rest) verified profiling buffers bindings with
    ⟨error, bound, hbind, hrun⟩ | ⟨bound, hbind, ⟨stop, last, hexecute, hrun⟩ |
      ⟨metrics, last, hexecute, hrun⟩⟩
  · exact ⟨bound, by rw [hrun], hfitted.of_bindPlaceholders hbind⟩
  · exact ⟨last, by rw [hrun],
      ((hfitted.of_bindPlaceholders hbind).executeNodes hrest hwords hexecute).1⟩
  · exact ⟨last, by rw [hrun],
      ((hfitted.of_bindPlaceholders hbind).executeNodes hrest hwords hexecute).1⟩

theorem afterRuns_prepare (hrest : rest.KeepsStorage) (hwords : verified.graph.FitsWords bits)
    (profiling : Bool) (earlier : List RawBindings) :
    ∃ buffers, (prepare bits verified profiling).afterRuns (.inWords bits rest) earlier =
      ⟨verified, profiling, buffers⟩ ∧ Fitted verified buffers := by
  have hruns (engine : RawEngine) (hengine : ∃ buffers, engine = ⟨verified, profiling, buffers⟩ ∧
      Fitted verified buffers) :
      ∃ buffers, engine.afterRuns (.inWords bits rest) earlier =
        ⟨verified, profiling, buffers⟩ ∧ Fitted verified buffers := by
    induction earlier generalizing engine with
    | nil => exact hengine
    | cons bindings earlier ih =>
        obtain ⟨buffers, rfl, hfitted⟩ := hengine
        exact ih _ (hfitted.run hrest hwords bindings)
  exact hruns _ ⟨_, rfl, prepared_fitted hwords profiling⟩

/-- The output variables are read with their types. -/
theorem Fitted.readOutputs (hfitted : Fitted verified buffers) :
    List.Forall₂ (fun (output : String × Storage) (target : Nat × Node) =>
        output.1 = target.2.name ∧ target.2.kind = .variable .output output.2.type)
      (RawEngine.readOutputs verified buffers) verified.outputs := by
  have hread : ∀ target ∈ verified.outputs, ∃ storage,
      buffers[target.1]?.bind RawBuffer.storage? = some storage ∧
        target.2.kind = .variable .output storage.type := by
    rintro ⟨position, node⟩ hmem
    obtain ⟨hnode, houtput⟩ := VerifiedGraph.mem_outputs_iff.mp hmem
    obtain ⟨type, hkind⟩ := Node.isOutput_iff.mp houtput
    have hresults := verified.results_of_variable hnode hkind
    obtain ⟨buffer, hbuffer, hfits⟩ := hfitted.exists_buffer hnode
    have hresult : node.results[0]? = some type := by rw [hresults]; rfl
    obtain ⟨storage, hstorage, rfl⟩ := hfits.exists_storage (verified.inferred hnode) hresult
    exact ⟨storage, by rw [hbuffer, Option.bind_some, hstorage], hkind⟩
  unfold RawEngine.readOutputs
  generalize verified.outputs = outputs at hread ⊢
  induction outputs with
  | nil => exact .nil
  | cons target outputs ih =>
      rw [List.forall_mem_cons] at hread
      obtain ⟨⟨storage, hstorage, hkind⟩, hrest⟩ := hread
      simp only [List.filterMap_cons, hstorage, Option.map_some]
      exact .cons ⟨rfl, hkind⟩ (ih hrest)

/-- What a run that comes to its end has counted and returns, whatever is bound. -/
theorem Fitted.run_eq_ok (hrest : rest.KeepsStorage) (hwords : verified.graph.FitsWords bits)
    (hfitted : Fitted verified buffers) {bindings : RawBindings} {output : RawOutput}
    (hrun : (RawEngine.run (.inWords bits rest) ⟨verified, profiling, buffers⟩ bindings).1 =
      .ok output) :
    (∀ placeholder ∈ verified.placeholders, bindings.Supplies placeholder.2) ∧
      output.metrics = verified.graph.account profiling verified.graph.executedNodes .empty ∧
      List.Forall₂ (fun (output : String × Storage) (target : Nat × Node) =>
          output.1 = target.2.name ∧ target.2.kind = .variable .output output.2.type)
        output.outputs verified.outputs := by
  rcases run_cases (.inWords bits rest) verified profiling buffers bindings with
    ⟨error, bound, -, heq⟩ | ⟨bound, hbind, ⟨stop, last, -, heq⟩ |
      ⟨metrics, last, hexecute, heq⟩⟩
  · rw [heq] at hrun
    cases hrun
  · rw [heq] at hrun
    cases hrun
  · rw [heq] at hrun
    obtain rfl := Except.ok.inj hrun
    obtain ⟨hlast, hmetrics⟩ :=
      (hfitted.of_bindPlaceholders hbind).executeNodes hrest hwords hexecute
    exact ⟨bindPlaceholders_eq_ok_iff.mp (congrArg Prod.fst hbind), hmetrics metrics rfl,
      hlast.readOutputs⟩

/-- A placeholder that is not supplied ends a run before any node is executed. -/
theorem run_eq_refused {bindings : RawBindings} (kernel : RawKernel)
    (hmissing : ¬∀ placeholder ∈ verified.placeholders, bindings.Supplies placeholder.2) :
    ∃ error, (run kernel ⟨verified, profiling, buffers⟩ bindings).1 = .error (.refused error) ∧
      FirstMissing bindings.Supplies verified.placeholders error := by
  rcases run_cases kernel verified profiling buffers bindings with
    ⟨error, bound, hbind, hrun⟩ | ⟨bound, hbind, -⟩
  · exact ⟨error, by rw [hrun], bindPlaceholders_eq_error (congrArg Prod.fst hbind)⟩
  · exact absurd (bindPlaceholders_eq_ok_iff.mp (congrArg Prod.fst hbind)) hmissing

/-- With well-formed storage bound, a run comes to the same as one on tensors. -/
theorem Fitted.run_eq_outcome (hbuilt : verified.graph.Built) (hrest : rest.KeepsStorage)
    (hwords : verified.graph.FitsWords bits) (hfitted : Fitted verified buffers)
    {bindings : RawBindings} (hwell : bindings.WellFormedOn verified.placeholders) :
    (RawEngine.run (.inWords bits rest) ⟨verified, profiling, buffers⟩ bindings).1 =
      RunOutput.outcome ((Engine.prepare verified profiling).run bindings.tensors).1 := by
  have hvalues : ((Engine.prepare verified profiling).run bindings.tensors).1 =
      verified.evaluateRun profiling bindings.tensors :=
    (Engine.run_eq_evaluateRun hbuilt profiling (Engine.prepared_fitted verified profiling)).1
  rw [hvalues, VerifiedGraph.evaluateRun]
  have hbound := bindPlaceholders_fst hwell buffers
  rcases run_cases (.inWords bits rest) verified profiling buffers bindings with
    ⟨error, bound, hbind, hrun⟩ | ⟨bound, hbind, hexecuted⟩
  · rw [hbind] at hbound
    rw [hrun, ← hbound]
    rfl
  · have hsettled := settled_of_bound hwell hfitted (congrArg Prod.fst hbind)
    rw [hbind] at hbound hsettled
    obtain ⟨hmetrics, hlast⟩ := Engine.executeEach_settles hbuilt
      (executeStep_evaluates hbuilt hwords) (Fitted.executeStep_preserves hrest hwords) profiling
      (hfitted.of_bindPlaceholders hbind) hsettled
    rw [← hbound, ok_bind]
    rcases hexecuted with ⟨stop, last, hexecute, hrun⟩ | ⟨metrics, last, hexecute, hrun⟩
    · rw [RawEngine.executeNodes] at hexecute
      rw [hexecute] at hmetrics
      obtain ⟨error, hvalue, rfl⟩ := mapError_eq_error_iff.mp hmetrics.symm
      rw [hrun, hvalue]
      rfl
    · rw [RawEngine.executeNodes] at hexecute
      rw [hexecute] at hmetrics hlast
      rw [hrun, mapError_eq_ok_iff.mp hmetrics.symm,
        readOutputs_eq_outputValues hbuilt (hlast metrics rfl)]
      rfl

end Runs

end RawEngine

def pooledSession : List BuildStep :=
  [.create (.placeholder "x" ⟨.f32, ⟨[1, 1, 2, 2]⟩⟩),
    .create (.pooling "pool" (.first 0) ⟨.max, ⟨.square 2, .square 1, ⟨0, 0, 0, 0⟩⟩⟩),
    .create (.save "y" (.first 1))]

theorem verify_pooledSession :
    ((Building.start "pooled").run pooledSession).graph.verify =
      .ok ⟨pooledGraph, check_pooledGraph⟩ := by
  have hgraph : ((Building.start "pooled").run pooledSession).graph = pooledGraph := by
    with_unfolding_all rfl
  rw [hgraph]
  exact Graph.verify_eq_ok_of_check check_pooledGraph

theorem pooledGraph_fitsWords : pooledGraph.FitsWords 64 := by
  intro node hnode
  simp [pooledGraph] at hnode
  rcases hnode with rfl | rfl | rfl | rfl
  · exact ⟨trivial, by decide⟩
  · refine ⟨fun type htype => ?_, by decide⟩
    obtain rfl : ⟨.f32, ⟨[1, 1, 2, 2]⟩⟩ = type := Except.ok.inj htype
    decide
  · exact ⟨trivial, by decide⟩
  · exact ⟨trivial, by decide⟩

/-- A kernel that reaches outside of storage with too few elements. -/
def faultingKernel : RawKernel := fun _ _ _ => .error .fault

def copyingSession : List BuildStep :=
  [.create (.placeholder "x" ⟨.f32, ⟨[2]⟩⟩), .create (.save "y" (.first 0))]

def copyingGraph : Graph where
  name := "copying"
  nodes := #[
    ⟨"x", .variable .placeholder ⟨.f32, ⟨[2]⟩⟩, [⟨.f32, ⟨[2]⟩⟩]⟩,
    ⟨"y", .variable .output ⟨.f32, ⟨[2]⟩⟩, [⟨.f32, ⟨[2]⟩⟩]⟩,
    ⟨"save_y", .save (.first 0) 1, []⟩]

/-- A window on a single element, behind more padding than a signed word of 64 bits can count. -/
def farPooling : Pooling := ⟨.max, ⟨⟨1, twoPow 63 + 101⟩, .square 1, ⟨0, twoPow 63 + 100, 0, 0⟩⟩⟩

def farSession : List BuildStep :=
  [.create (.placeholder "x" ⟨.f32, ⟨[1, 1, 1, 1]⟩⟩),
    .create (.pooling "pool" (.first 0) farPooling), .create (.save "y" (.first 1))]

def farGraph : Graph where
  name := "far"
  nodes := #[
    ⟨"x", .variable .placeholder ⟨.f32, ⟨[1, 1, 1, 1]⟩⟩, [⟨.f32, ⟨[1, 1, 1, 1]⟩⟩]⟩,
    ⟨"pool", .pooling (.first 0) farPooling, [⟨.f32, ⟨[1, 1, 1, 1]⟩⟩]⟩,
    ⟨"y", .variable .output ⟨.f32, ⟨[1, 1, 1, 1]⟩⟩, [⟨.f32, ⟨[1, 1, 1, 1]⟩⟩]⟩,
    ⟨"save_y", .save (.first 1) 2, []⟩]

theorem check_copyingGraph : copyingGraph.check = .ok () := by cbv

theorem check_farGraph : farGraph.check = .ok () := by with_unfolding_all rfl

end NetImport
