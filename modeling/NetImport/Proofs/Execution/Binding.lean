import NetImport.Proofs.Execution.Buffers
import NetImport.Proofs.Graph.Variables

/-!
# Binding the placeholders of a graph

Bindings supply a placeholder when they hold a tensor of its type under its name.  A run
asks for the placeholders in order of creation and stops at the first one that is not
supplied; the ones before it have their tensors by then.
-/

namespace NetImport

namespace Bindings

/-- The bindings hold a tensor of the type of a placeholder under its name. -/
def Supplies (bindings : Bindings) (placeholder : Node) : Prop :=
  ∃ tensor, bindings.get? placeholder.name = some tensor ∧
    placeholder.kind = .variable .placeholder tensor.type

theorem get?_foldl_insert_of_not_mem {entries : List (String × Tensor)} {name : String}
    (hname : name ∉ entries.map Prod.fst) (bindings : Bindings) :
    (entries.foldl (fun bindings entry => bindings.insert entry.1 entry.2) bindings).get? name =
      bindings.get? name := by
  induction entries generalizing bindings with
  | nil => rfl
  | cons entry entries ih =>
      rw [List.map_cons, List.mem_cons, not_or] at hname
      rw [List.foldl_cons, ih hname.2, get?_insert, if_neg (Ne.symm hname.1)]

/-- Under distinct names every entry of a list stays bound. -/
theorem get?_foldl_insert_of_mem {entries : List (String × Tensor)}
    (hnames : (entries.map Prod.fst).Nodup) {name : String} {tensor : Tensor}
    (hmem : (name, tensor) ∈ entries) (bindings : Bindings) :
    (entries.foldl (fun bindings entry => bindings.insert entry.1 entry.2) bindings).get? name =
      some tensor := by
  induction entries generalizing bindings with
  | nil => cases hmem
  | cons entry entries ih =>
      rw [List.map_cons, List.nodup_cons] at hnames
      rw [List.foldl_cons]
      rcases List.mem_cons.mp hmem with rfl | hlater
      · rw [get?_foldl_insert_of_not_mem hnames.1, get?_insert, if_pos rfl]
      · exact ih hnames.2 hlater _

end Bindings

namespace VerifiedGraph

theorem results_of_variable (verified : VerifiedGraph) {position : Nat} {node : Node}
    (hnode : verified.nodes[position]? = some node) {role : VariableRole} {type : TensorType}
    (hkind : node.kind = .variable role type) :
    node.results = [type] := by
  have hinfer := verified.inferred hnode
  rw [hkind] at hinfer
  exact Typing.results_of_infer_variable hinfer

theorem mem_placeholders_iff {verified : VerifiedGraph} {position : Nat} {node : Node} :
    (position, node) ∈ verified.placeholders ↔
      verified.nodes[position]? = some node ∧ node.isPlaceholder :=
  Graph.mem_placeholderNodes_iff

theorem mem_outputs_iff {verified : VerifiedGraph} {position : Nat} {node : Node} :
    (position, node) ∈ verified.outputs ↔
      verified.nodes[position]? = some node ∧ node.isOutput :=
  Graph.mem_outputNodes_iff

end VerifiedGraph

/-! ## Walks over placeholders -/

section Walk

variable {α : Type} {ask : Node → Except RunError α} {supplied : Node → Prop}
  {placeholders : List (Nat × Node)}

/-- An error names the first placeholder that is not supplied. -/
def FirstMissing (supplied : Node → Prop) (placeholders : List (Nat × Node))
    (error : RunError) : Prop :=
  ∃ before placeholder after detail,
    placeholders = before ++ placeholder :: after ∧
    (∀ earlier ∈ before, supplied earlier.2) ∧ ¬supplied placeholder.2 ∧
    error = .binding placeholder.2.name detail

theorem forM_asked_eq_ok_iff
    (hask : ∀ placeholder ∈ placeholders,
      (∃ found, ask placeholder.2 = .ok found) ↔ supplied placeholder.2) :
    (placeholders.forM fun placeholder => ask placeholder.2 >>= fun _ => .ok ()) = .ok () ↔
      ∀ placeholder ∈ placeholders, supplied placeholder.2 := by
  rw [forM_eq_ok_iff]
  refine forall₂_congr fun placeholder hmem => ?_
  rw [← hask placeholder hmem]
  simp

theorem firstMissing_of_forM_asked
    (hask : ∀ placeholder ∈ placeholders,
      (∃ found, ask placeholder.2 = .ok found) ↔ supplied placeholder.2)
    (hname : ∀ node error, ask node = .error error → ∃ detail, error = .binding node.name detail)
    {error : RunError}
    (herror : (placeholders.forM fun placeholder => ask placeholder.2 >>= fun _ => .ok ()) =
      .error error) :
    FirstMissing supplied placeholders error := by
  obtain ⟨before, placeholder, after, hsplit, hbefore, hrefused⟩ := forM_eq_error_iff.mp herror
  have hmem (other : Nat × Node) (hother : other ∈ before ++ [placeholder]) :
      other ∈ placeholders := by
    rw [hsplit, List.append_cons]
    exact List.mem_append_left _ hother
  cases hasked : ask placeholder.2 with
  | ok found =>
      rw [hasked] at hrefused
      cases hrefused
  | error cause =>
      rw [hasked, error_bind] at hrefused
      obtain rfl := Except.error.inj hrefused
      obtain ⟨detail, hdetail⟩ := hname _ _ hasked
      refine ⟨before, placeholder, after, detail, hsplit, ?_, ?_, hdetail⟩
      · intro earlier hearlier
        rw [← hask earlier (hmem earlier (by simp [hearlier]))]
        obtain ⟨found, hfound, -⟩ := bind_eq_ok_iff.mp (hbefore earlier hearlier)
        exact ⟨found, hfound⟩
      · rw [← hask placeholder (hmem placeholder (by simp))]
        rintro ⟨found, hfound⟩
        cases hasked.symm.trans hfound

end Walk

namespace Engine

section BindEach

variable {Given Slot : Type} {given : Node → Except RunError Given} {own : Given → Slot}

/-- A walk over the placeholders is refused at the first one that is not given anything. -/
theorem bindEach_fst (placeholders : List (Nat × Node)) (buffers : Array Slot) :
    (bindEach given own placeholders buffers).1 =
      placeholders.forM fun placeholder => given placeholder.2 >>= fun _ => .ok () := by
  induction placeholders generalizing buffers with
  | nil => rfl
  | cons placeholder placeholders ih =>
      obtain ⟨position, node⟩ := placeholder
      rw [forM_cons_eq, bindEach]
      cases hgiven : given node with
      | error error => rfl
      | ok found =>
          simp only [ok_bind]
          exact ih _

/-- Binding keeps the buffers fitting, also when it is refused half way. -/
theorem FittedBy.bindEach {fits : Node → Slot → Prop} {graph : VerifiedGraph}
    {placeholders : List (Nat × Node)}
    (hplaceholders : ∀ placeholder ∈ placeholders, placeholder ∈ graph.placeholders)
    (hgiven : ∀ placeholder ∈ graph.placeholders, ∀ found,
      given placeholder.2 = .ok found → fits placeholder.2 (own found))
    {buffers : Array Slot} (hfitted : FittedBy fits graph buffers) :
    FittedBy fits graph (bindEach given own placeholders buffers).2 := by
  induction placeholders generalizing buffers with
  | nil => exact hfitted
  | cons placeholder placeholders ih =>
      obtain ⟨position, node⟩ := placeholder
      rw [List.forall_mem_cons] at hplaceholders
      obtain ⟨hmem, hrest⟩ := hplaceholders
      have hnode := (VerifiedGraph.mem_placeholders_iff.mp hmem).1
      rw [Engine.bindEach]
      cases hfound : given node with
      | error error => exact hfitted
      | ok found => exact ih hrest (hfitted.set hnode (hgiven _ hmem found hfound))

/-- After a walk that is not refused, each placeholder has the buffer that it was given. -/
theorem bindEach_bound {graph : VerifiedGraph} {placeholders : List (Nat × Node)}
    (hplaceholders : ∀ placeholder ∈ placeholders, placeholder ∈ graph.placeholders)
    {buffers : Array Slot} (hsize : buffers.size = graph.nodes.size)
    (hok : (bindEach given own placeholders buffers).1 = .ok ())
    {placeholder : Nat × Node} (hmem : placeholder ∈ graph.placeholders)
    (hbound : placeholder ∈ placeholders ∨
      ∃ found, given placeholder.2 = .ok found ∧ buffers[placeholder.1]? = some (own found)) :
    ∃ found, given placeholder.2 = .ok found ∧
      (bindEach given own placeholders buffers).2[placeholder.1]? = some (own found) := by
  induction placeholders generalizing buffers with
  | nil => exact hbound.resolve_left (List.not_mem_nil)
  | cons first placeholders ih =>
      obtain ⟨position, node⟩ := first
      obtain ⟨target, targetNode⟩ := placeholder
      rw [List.forall_mem_cons] at hplaceholders
      obtain ⟨hfirst, hrest⟩ := hplaceholders
      have hnode := (VerifiedGraph.mem_placeholders_iff.mp hfirst).1
      have htargetNode := (VerifiedGraph.mem_placeholders_iff.mp hmem).1
      have hposition : position < buffers.size := by
        rw [hsize]
        exact (Array.getElem?_eq_some_iff.mp hnode).1
      rw [bindEach] at hok ⊢
      cases hgiven : given node with
      | error error =>
          rw [hgiven] at hok
          cases hok
      | ok found =>
          rw [hgiven] at hok
          refine ih hrest (by rw [Array.size_setIfInBounds, hsize]) hok ?_
          by_cases htarget : position = target
          · -- the placeholder at this position is this one, whichever way it is reached
            subst htarget
            obtain rfl : node = targetNode := Option.some.inj (hnode.symm.trans htargetNode)
            refine .inr ⟨found, hgiven, ?_⟩
            rw [Array.getElem?_setIfInBounds, if_pos rfl, if_pos hposition]
          · rcases hbound with hlisted | ⟨earlier, hearlier, hbuffer⟩
            · rcases List.mem_cons.mp hlisted with heq | hlater
              · exact absurd (congrArg Prod.fst heq).symm htarget
              · exact .inl hlater
            · refine .inr ⟨earlier, hearlier, ?_⟩
              rw [Array.getElem?_setIfInBounds, if_neg htarget]
              exact hbuffer

end BindEach

variable {bindings : Bindings}

theorem boundTensor_eq_ok_iff {node : Node} {tensor : Tensor} :
    boundTensor bindings node = .ok tensor ↔
      bindings.get? node.name = some tensor ∧ node.results.head? = some tensor.type := by
  unfold boundTensor
  split
  · next hnone => simp [hnone]
  · next found hfound =>
      split
      · next htype =>
          simp only [Except.ok.injEq, hfound, Option.some.injEq]
          exact ⟨fun heq => ⟨heq, heq ▸ htype⟩, fun heq => heq.1⟩
      · next htype =>
          simp only [reduceCtorEq, hfound, Option.some.injEq, false_iff, not_and]
          exact fun heq => heq ▸ htype

theorem name_of_boundTensor_eq_error {node : Node} {error : RunError}
    (herror : boundTensor bindings node = .error error) :
    ∃ detail, error = .binding node.name detail := by
  unfold boundTensor at herror
  split at herror
  · exact ⟨_, (Except.error.inj herror).symm⟩
  · split at herror
    · cases herror
    · exact ⟨_, (Except.error.inj herror).symm⟩

theorem exists_boundTensor_iff {graph : VerifiedGraph} {position : Nat} {node : Node}
    (hmem : (position, node) ∈ graph.placeholders) :
    (∃ tensor, boundTensor bindings node = .ok tensor) ↔ bindings.Supplies node := by
  obtain ⟨hnode, hplaceholder⟩ := VerifiedGraph.mem_placeholders_iff.mp hmem
  obtain ⟨type, hkind⟩ := Node.isPlaceholder_iff.mp hplaceholder
  have hresults := graph.results_of_variable hnode hkind
  refine exists_congr fun tensor => ?_
  rw [boundTensor_eq_ok_iff, hresults, hkind]
  simp

theorem bindPlaceholders_fst (placeholders : List (Nat × Node)) (buffers : Array Buffer) :
    (bindPlaceholders bindings placeholders buffers).1 =
      placeholders.forM fun placeholder =>
        boundTensor bindings placeholder.2 >>= fun _ => .ok () :=
  bindEach_fst placeholders buffers

/-- All placeholders are bound exactly when all are supplied. -/
theorem bindPlaceholders_eq_ok_iff {graph : VerifiedGraph} {buffers : Array Buffer} :
    (bindPlaceholders bindings graph.placeholders buffers).1 = .ok () ↔
      ∀ placeholder ∈ graph.placeholders, bindings.Supplies placeholder.2 := by
  rw [bindPlaceholders_fst]
  exact forM_asked_eq_ok_iff fun _ => exists_boundTensor_iff

/-- A refusal names the first placeholder that is not supplied. -/
theorem bindPlaceholders_eq_error {graph : VerifiedGraph} {buffers : Array Buffer}
    {error : RunError}
    (herror : (bindPlaceholders bindings graph.placeholders buffers).1 = .error error) :
    FirstMissing bindings.Supplies graph.placeholders error := by
  rw [bindPlaceholders_fst] at herror
  exact firstMissing_of_forM_asked (fun _ => exists_boundTensor_iff)
    (fun _ _ => name_of_boundTensor_eq_error) herror

theorem Fitted.bindPlaceholders {graph : VerifiedGraph} {buffers : Array Buffer}
    (hfitted : Fitted graph buffers) :
    Fitted graph (bindPlaceholders bindings graph.placeholders buffers).2 := by
  refine FittedBy.bindEach (fun _ hmem => hmem) ?_ hfitted
  rintro ⟨position, node⟩ hmem tensor hbound
  obtain ⟨hnode, hplaceholder⟩ := VerifiedGraph.mem_placeholders_iff.mp hmem
  obtain ⟨type, hkind⟩ := Node.isPlaceholder_iff.mp hplaceholder
  have hresults := graph.results_of_variable hnode hkind
  have htype := (boundTensor_eq_ok_iff.mp hbound).2
  rw [hresults, List.head?_cons, Option.some.injEq] at htype
  have hconstant : node.constant? = none := by
    simp [Node.constant?, Node.role?, hkind]
  exact (Buffer.fits_iff_of_result hconstant hresults).mpr ⟨tensor, rfl, htype.symm⟩

/-- The buffer of a placeholder holds the tensor that is bound to it. -/
def Bound (bindings : Bindings) (buffers : Array Buffer) (placeholder : Nat × Node) : Prop :=
  ∃ tensor, bindings.get? placeholder.2.name = some tensor ∧
    buffers[placeholder.1]? = some (.owned tensor)

theorem bindPlaceholders_bound {graph : VerifiedGraph} {buffers : Array Buffer}
    (hsize : buffers.size = graph.nodes.size)
    (hok : (bindPlaceholders bindings graph.placeholders buffers).1 = .ok ())
    {placeholder : Nat × Node} (hmem : placeholder ∈ graph.placeholders) :
    Bound bindings (bindPlaceholders bindings graph.placeholders buffers).2 placeholder := by
  obtain ⟨tensor, hgiven, hbuffer⟩ :=
    bindEach_bound (fun _ hmem => hmem) hsize hok hmem (.inl hmem)
  exact ⟨tensor, (boundTensor_eq_ok_iff.mp hgiven).1, hbuffer⟩

end Engine
end NetImport
