import NetImport.Proofs.Execution.TypeSoundness
import NetImport.Proofs.Graph.Building

/-!
# Runs compute the values of a graph

The value of a node follows from the values of its operands by recursion on positions,
without any buffers.  A run of an engine returns these values whatever the engine has
run before: what a buffer of an earlier run still holds is written over before any node
reads it.  For this the save of an output variable has to stand before every other node
that could read the variable, which holds in the graphs that builders make.
-/

namespace NetImport

namespace Graph

/-- The input of the save that writes an output variable. -/
def savedInput? (graph : Graph) (output : Nat) : Option Handle :=
  graph.nodes.toList.findSome? fun node =>
    match node.kind with
    | .save input target => if target = output then some input else none
    | _ => none

def missingValue (position : Nat) : TensorError :=
  .invalidArgument "read" s!"value {(Handle.first position).text} is not available"

/-- The value of a node, from a look-up of values of earlier nodes: placeholders are
bound, constants given and output variables saved, and other nodes apply their kernels
over tensors of zeros. -/
def nodeValue (graph : Graph) (bindings : Bindings) (position : Nat) (node : Node)
    (read : Handle → Except TensorError Tensor) : Except TensorError Tensor :=
  match node.kind with
  | .variable .placeholder _ =>
      match bindings.get? node.name with
      | some tensor => .ok tensor
      | none => .error (missingValue position)
  | .variable (.constant tensor) _ => .ok tensor
  | .variable .output _ =>
      match graph.savedInput? position with
      | some input => read input
      | none => .error (missingValue position)
  | .save .. => .error (missingValue position)
  | kind =>
      match node.results with
      | type :: _ => Engine.applyKernel kind read (Tensor.zeros type.dtype type.shape)
      | [] => .error (missingValue position)

/-- The value of the node at a position. -/
def evaluate (graph : Graph) (bindings : Bindings) (position : Nat) :
    Except TensorError Tensor :=
  match graph.nodes[position]? with
  | none => .error (missingValue position)
  | some node =>
      graph.nodeValue bindings position node fun value =>
        if _h : value.node < position then graph.evaluate bindings value.node
        else .error (missingValue value.node)
termination_by position

/-- The values that a node can read. -/
def valueBefore (graph : Graph) (bindings : Bindings) (position : Nat) (value : Handle) :
    Except TensorError Tensor :=
  if value.node < position then graph.evaluate bindings value.node
  else .error (missingValue value.node)

theorem evaluate_eq (graph : Graph) (bindings : Bindings) {position : Nat} {node : Node}
    (hnode : graph.nodes[position]? = some node) :
    graph.evaluate bindings position =
      graph.nodeValue bindings position node (graph.valueBefore bindings position) := by
  rw [evaluate, hnode]
  rfl

namespace Built

variable {graph : Graph}

theorem savedInput?_eq (hbuilt : graph.Built) {output : Nat} {node : Node}
    (hnode : graph.nodes[output]? = some node) (houtput : node.isOutput) :
    ∃ saving input, graph.nodes[output + 1]? = some saving ∧
      saving.kind = .save input output ∧ input.node < output ∧
      graph.savedInput? output = some input := by
  obtain ⟨-, saving, hsaving, hinto⟩ :=
    hbuilt.saved _ _ (Array.getElem?_eq_some_iff.mp hnode).1 hnode houtput
  obtain ⟨input, hkind⟩ := WellBuilt.savesInto_iff.mp hinto
  refine ⟨saving, input, hsaving, hkind, (hbuilt.wellBuilt.saveFollows hsaving hkind).2, ?_⟩
  cases hfound : graph.savedInput? output with
  | none =>
      have hnone := List.findSome?_eq_none_iff.mp hfound saving
        (Array.mem_toList_iff.mpr (Array.mem_of_getElem? hsaving))
      simp [hkind] at hnone
  | some found =>
      obtain ⟨other, hmem, hother⟩ := List.exists_of_findSome?_eq_some hfound
      obtain ⟨position, hposition⟩ :=
        Array.mem_iff_getElem?.mp (Array.mem_toList_iff.mp hmem)
      split at hother
      · next source target hotherKind =>
          split at hother
          · next htarget =>
              subst htarget
              have hsame := (hbuilt.wellBuilt.saveFollows hposition hotherKind).1
              rw [hsame] at hposition
              obtain rfl : saving = other := Option.some.inj (hsaving.symm.trans hposition)
              rw [hkind] at hotherKind
              rw [(NodeKind.save.inj hotherKind).1, Option.some.inj hother]
          · cases hother
      · cases hother

end Built

end Graph

namespace Node

/-- The position of the buffer that a node writes. -/
def target (node : Node) (position : Nat) : Nat := node.savesInto?.getD position

/-- The node at a position holds its value once so many nodes have been executed: an
output variable has to wait for the save behind it. -/
def SettledAt (node : Node) (position count : Nat) : Prop :=
  match node.kind with
  | .variable .output _ => position + 1 < count
  | .variable _ _ => True
  | .save .. => False
  | _ => position < count

theorem target_of_save {node : Node} {input : Handle} {output : Nat}
    (hkind : node.kind = .save input output) (position : Nat) :
    node.target position = output := by
  simp [target, savesInto?, hkind]

theorem target_of_computes {node : Node} (hkind : node.kind.Computes) (position : Nat) :
    node.target position = position := by
  cases hnode : node.kind <;> rw [hnode] at hkind <;>
    first | exact hkind.elim | simp [target, savesInto?, hnode]

/-- Executing a node settles the node that it writes, and no other. -/
theorem settledAt_succ {graph : Graph} (hbuilt : graph.Built) {count position : Nat}
    {executed node : Node} (hexecuted : graph.nodes[count]? = some executed)
    (hnode : graph.nodes[position]? = some node)
    (hsettled : node.SettledAt position (count + 1)) :
    node.SettledAt position count ∨
      executed.isVariable = false ∧ position = executed.target count := by
  unfold SettledAt at hsettled ⊢
  split at hsettled
  · next type hkind =>
      by_cases hbefore : position + 1 < count
      · exact .inl hbefore
      · -- the node that is executed now is the save of this output variable
        obtain rfl : count = position + 1 := by omega
        obtain ⟨saving, input, hsaving, hsavingKind, -, -⟩ :=
          hbuilt.savedInput?_eq hnode (isOutput_iff.mpr ⟨type, hkind⟩)
        obtain rfl : saving = executed := Option.some.inj (hsaving.symm.trans hexecuted)
        refine .inr ⟨by rw [isVariable, hsavingKind]; rfl, ?_⟩
        rw [target_of_save hsavingKind]
  · exact .inl trivial
  · exact hsettled.elim
  · next hvariable hotherVariable hsave =>
      by_cases hbefore : position < count
      · exact .inl hbefore
      · obtain rfl : position = count := by omega
        obtain rfl : node = executed := Option.some.inj (hnode.symm.trans hexecuted)
        rcases node.kind.variable_or_save_or_computes with hkind | ⟨input, output, hkind⟩ | hkind
        · cases hnodeKind : node.kind <;> rw [hnodeKind] at hkind <;> cases hkind
          exact absurd hnodeKind (hotherVariable _ _)
        · exact absurd hkind (hsave input output)
        · refine .inr ⟨?_, (target_of_computes hkind position).symm⟩
          cases hnodeKind : node.kind <;> rw [hnodeKind] at hkind <;>
            first | exact hkind.elim | simp [isVariable, NodeKind.isVariable, hnodeKind]

end Node

namespace Graph

/-- What the executed nodes of a run come to, by their values alone. -/
def evaluateNodes (graph : Graph) (bindings : Bindings) (profiling : Bool) :
    List (Node × Nat) → Metrics → Except RunError Metrics
  | [], metrics => .ok metrics
  | (node, position) :: nodes, metrics =>
      if node.isVariable then graph.evaluateNodes bindings profiling nodes metrics
      else
        match graph.evaluate bindings (node.target position) with
        | .error cause => .error (.execution node.name cause)
        | .ok tensor =>
            graph.evaluateNodes bindings profiling nodes
              (metrics.record ⟨node.name, node.kind.label, 0, tensor.sizeBytes⟩ profiling)

/-- The settled nodes hold their values. -/
def Settled (graph : Graph) (bindings : Bindings) (held : Nat → Option Tensor) (count : Nat) :
    Prop :=
  ∀ (position : Nat) (node : Node), graph.nodes[position]? = some node →
    node.SettledAt position count →
    ∃ tensor, held position = some tensor ∧ graph.evaluate bindings position = .ok tensor

namespace Settled

variable {verified : VerifiedGraph} {bindings : Bindings} {held : Nat → Option Tensor}
  {count : Nat} {node : Node}

/-- The operands of the node that is executed next hold their values. -/
theorem operand (hbuilt : verified.graph.Built)
    (hsettled : verified.graph.Settled bindings held count)
    (hnode : verified.nodes[count]? = some node) {value : Handle}
    (hvalue : value ∈ node.kind.operands) :
    value.node < count ∧ ∃ tensor, held value.node = some tensor ∧
      verified.graph.valueBefore bindings count value = .ok tensor := by
  obtain ⟨type, htype⟩ := Typing.operand_of_infer (verified.inferred hnode) hvalue
  obtain ⟨hbefore, hall⟩ := Typing.operand_of_operand_take htype
  obtain ⟨source, hsource, hresult⟩ := Typing.operand_eq_ok_iff.mp hall
  have hsourceSettled : source.SettledAt value.node count := by
    unfold Node.SettledAt
    split
    · next declared hkind =>
        by_cases hlast : value.node + 1 < count
        · exact hlast
        · -- otherwise the reader is the save of the variable, whose input is older
          obtain rfl : count = value.node + 1 := by omega
          obtain ⟨saving, input, hsaving, hsavingKind, hinput, -⟩ :=
            hbuilt.savedInput?_eq hsource (Node.isOutput_iff.mpr ⟨declared, hkind⟩)
          obtain rfl : saving = node := Option.some.inj (hsaving.symm.trans hnode)
          rw [hsavingKind, NodeKind.operands, List.mem_singleton] at hvalue
          rw [hvalue] at hinput
          omega
    · trivial
    · next input output hkind =>
        have hresults := Typing.results_of_infer (verified.inferred hsource)
        rcases hresults with ⟨-, hnone⟩ | ⟨hsave, -⟩
        · simp [hnone] at hresult
        · exact hsave input output hkind
    · exact hbefore
  obtain ⟨tensor, hheld, hvalue⟩ := hsettled _ _ hsource hsourceSettled
  refine ⟨hbefore, tensor, hheld, ?_⟩
  rw [Graph.valueBefore, if_pos hbefore, hvalue]

theorem of_isVariable (hbuilt : verified.graph.Built)
    (hsettled : verified.graph.Settled bindings held count)
    (hnode : verified.nodes[count]? = some node) (hvariable : node.isVariable = true) :
    verified.graph.Settled bindings held (count + 1) := by
  intro position other hother hotherSettled
  rcases Node.settledAt_succ hbuilt hnode hother hotherSettled with hbefore | ⟨hexecuted, -⟩
  · exact hsettled _ _ hother hbefore
  · rw [hvariable] at hexecuted
    cases hexecuted

/-- A node that writes its value settles its target, and nothing else changes. -/
theorem afterExecution (hbuilt : verified.graph.Built)
    (hsettled : verified.graph.Settled bindings held count)
    (hnode : verified.nodes[count]? = some node) {tensor : Tensor}
    (hvalue : verified.graph.evaluate bindings (node.target count) = .ok tensor)
    {next : Nat → Option Tensor}
    (hwritten : ∀ other, verified.nodes[node.target count]? = some other →
      next (node.target count) = some tensor)
    (hkept : ∀ position, position ≠ node.target count → next position = held position) :
    verified.graph.Settled bindings next (count + 1) := by
  intro position other hother hotherSettled
  by_cases htarget : position = node.target count
  · subst htarget
    exact ⟨tensor, hwritten other hother, hvalue⟩
  · rw [hkept position htarget]
    rcases Node.settledAt_succ hbuilt hnode hother hotherSettled with hbefore | ⟨-, hwrites⟩
    · exact hsettled _ _ hother hbefore
    · exact absurd hwrites htarget

/-- Before any node is executed, the variables that are no outputs have to hold their values. -/
theorem of_variables
    (hconstants : ∀ (position : Nat) (node : Node) (tensor : Tensor),
      verified.nodes[position]? = some node → node.constant? = some tensor →
        held position = some tensor)
    (hplaceholders : ∀ placeholder ∈ verified.placeholders, ∃ tensor,
      bindings.get? placeholder.2.name = some tensor ∧ held placeholder.1 = some tensor) :
    verified.graph.Settled bindings held 0 := by
  intro position node hnode hsettled
  rw [Graph.evaluate_eq _ _ hnode]
  unfold Node.SettledAt at hsettled
  split at hsettled
  · omega
  · next role type hnotOutput hkind =>
      cases role with
      | placeholder =>
          obtain ⟨tensor, htensor, hheld⟩ := hplaceholders (position, node)
            (VerifiedGraph.mem_placeholders_iff.mpr
              ⟨hnode, Node.isPlaceholder_iff.mpr ⟨type, hkind⟩⟩)
          refine ⟨tensor, hheld, ?_⟩
          simp only [Graph.nodeValue, hkind, htensor]
      | constant tensor =>
          refine ⟨tensor, hconstants position node tensor hnode ?_, ?_⟩
          · simp [Node.constant?, Node.role?, hkind]
          · simp only [Graph.nodeValue, hkind]
      | output => exact (hnotOutput rfl).elim
  · exact hsettled.elim
  · omega

/-- When all nodes are settled, every output variable holds its value. -/
theorem output_value (hbuilt : verified.graph.Built)
    (hsettled : verified.graph.Settled bindings held verified.nodes.size)
    {output : Nat × Node} (hmem : output ∈ verified.outputs) :
    ∃ tensor, held output.1 = some tensor ∧
      verified.graph.evaluate bindings output.1 = .ok tensor := by
  obtain ⟨position, node⟩ := output
  obtain ⟨hnode, houtput⟩ := VerifiedGraph.mem_outputs_iff.mp hmem
  obtain ⟨type, hkind⟩ := Node.isOutput_iff.mp houtput
  obtain ⟨saving, input, hsaving, -⟩ := hbuilt.savedInput?_eq hnode houtput
  refine hsettled _ _ hnode ?_
  simp only [Node.SettledAt, hkind]
  exact (Array.getElem?_eq_some_iff.mp hsaving).1

end Settled

end Graph

namespace Engine

/-! ## Whole runs -/

section ExecuteEach

variable {Slot Failure : Type} {fits : Node → Slot → Prop} {verified : VerifiedGraph}
  {bindings : Bindings} {held : Array Slot → Nat → Option Tensor}
  {step : Node → Nat → Array Slot → Except Failure (Nat × Array Slot)}
  {failed : RunError → Failure}

/-- A step fails with the value of its target, and otherwise settles the next node. -/
def Evaluates (fits : Node → Slot → Prop) (verified : VerifiedGraph) (bindings : Bindings)
    (held : Array Slot → Nat → Option Tensor) (failed : RunError → Failure)
    (step : Node → Nat → Array Slot → Except Failure (Nat × Array Slot)) : Prop :=
  ∀ {count : Nat} {node : Node} {buffers : Array Slot},
    verified.nodes[count]? = some node → node.isVariable = false →
    FittedBy fits verified buffers → verified.graph.Settled bindings (held buffers) count →
    match verified.graph.evaluate bindings (node.target count) with
    | .error cause => step node count buffers = .error (failed (.execution node.name cause))
    | .ok tensor => ∃ next, step node count buffers = .ok (tensor.sizeBytes, next) ∧
        verified.graph.Settled bindings (held next) (count + 1)

/-- Steps in order come to the values of their nodes, and settle them one by one. -/
theorem executeEach_eq_evaluateNodes (hbuilt : verified.graph.Built)
    (hstep : Evaluates fits verified bindings held failed step)
    (hkeeps : Preserves fits verified step) (profiling : Bool) {count : Nat} {nodes : List Node}
    (hnodes : ∀ i, nodes[i]? = verified.nodes.toList[count + i]?) {buffers : Array Slot}
    (hfitted : FittedBy fits verified buffers)
    (hsettled : verified.graph.Settled bindings (held buffers) count) (metrics : Metrics) :
    (executeEach step profiling (nodes.zipIdx count) buffers metrics).1 =
        (verified.graph.evaluateNodes bindings profiling (nodes.zipIdx count) metrics).mapError
          failed ∧
      ∀ done, (executeEach step profiling (nodes.zipIdx count) buffers metrics).1 = .ok done →
        verified.graph.Settled bindings
          (held (executeEach step profiling (nodes.zipIdx count) buffers metrics).2)
          (count + nodes.length) := by
  induction nodes generalizing count buffers metrics with
  | nil => exact ⟨rfl, fun _ _ => hsettled⟩
  | cons node nodes ih =>
      have hnode : verified.nodes[count]? = some node := by
        rw [← Array.getElem?_toList]
        exact (hnodes 0).symm
      have hrest (i : Nat) : nodes[i]? = verified.nodes.toList[count + 1 + i]? := by
        rw [Nat.add_right_comm]
        exact hnodes (i + 1)
      have hlength : count + (node :: nodes).length = count + 1 + nodes.length := by
        rw [List.length_cons]
        omega
      rw [List.zipIdx_cons, hlength]
      unfold executeEach Graph.evaluateNodes
      cases hvariable : node.isVariable with
      | true => exact ih hrest hfitted (hsettled.of_isVariable hbuilt hnode hvariable) metrics
      | false =>
          have htaken := hstep hnode hvariable hfitted hsettled
          cases hvalue : verified.graph.evaluate bindings (node.target count) with
          | error cause =>
              rw [hvalue] at htaken
              simp only [htaken]
              exact ⟨rfl, fun done hdone => by cases hdone⟩
          | ok tensor =>
              rw [hvalue] at htaken
              obtain ⟨next, htaken, hnext⟩ := htaken
              simp only [htaken]
              exact ih hrest (hkeeps hnode hvariable hfitted htaken).1 hnext _

/-- The steps of a whole graph come to the values of its nodes, and settle all of them. -/
theorem executeEach_settles (hbuilt : verified.graph.Built)
    (hstep : Evaluates fits verified bindings held failed step)
    (hkeeps : Preserves fits verified step) (profiling : Bool) {buffers : Array Slot}
    (hfitted : FittedBy fits verified buffers)
    (hsettled : verified.graph.Settled bindings (held buffers) 0) :
    (executeEach step profiling verified.nodes.toList.zipIdx buffers .empty).1 =
        (verified.graph.evaluateNodes bindings profiling verified.nodes.toList.zipIdx
          .empty).mapError failed ∧
      ∀ done, (executeEach step profiling verified.nodes.toList.zipIdx buffers .empty).1 =
          .ok done →
        verified.graph.Settled bindings
          (held (executeEach step profiling verified.nodes.toList.zipIdx buffers .empty).2)
          verified.nodes.size := by
  have hruns := executeEach_eq_evaluateNodes hbuilt hstep hkeeps profiling
    (fun i => by rw [Nat.zero_add]) hfitted hsettled .empty
  rwa [Nat.zero_add, Array.length_toList] at hruns

end ExecuteEach

/-! ## Runs of an engine -/

/-- The tensors that the buffers hold, by position. -/
def held (buffers : Array Buffer) (position : Nat) : Option Tensor :=
  buffers[position]?.bind Buffer.tensor?

variable {verified : VerifiedGraph} {bindings : Bindings} {buffers : Array Buffer} {count : Nat}
  {node : Node}

theorem held_set (buffers : Array Buffer) (target : Nat) (tensor : Tensor) {position : Nat} :
    held (buffers.setIfInBounds target (.owned tensor)) position =
      if position = target ∧ target < buffers.size then some tensor
      else held buffers position := by
  unfold held
  rw [Array.getElem?_setIfInBounds]
  by_cases htarget : target = position
  · subst htarget
    by_cases hinside : target < buffers.size
    · simp [hinside, Buffer.tensor?]
    · simp [hinside]
  · simp [htarget, Ne.symm htarget]

/-- The value of a node that computes does not depend on the tensor it writes over. -/
theorem nodeValue_of_computes (hnode : verified.nodes[count]? = some node)
    (hkind : node.kind.Computes) {current : Tensor}
    (hcurrent : Buffer.Fits node (.owned current))
    (read : Handle → Except TensorError Tensor) :
    verified.graph.nodeValue bindings count node read =
      applyKernel node.kind read current := by
  obtain ⟨hconstant, type, hresults⟩ := verified.result_of_computes hnode hkind
  obtain ⟨found, hfound, htype⟩ := (Buffer.fits_iff_of_result hconstant hresults).mp hcurrent
  obtain rfl := Buffer.owned.inj hfound
  unfold Graph.nodeValue
  split <;> (try (next hother => rw [hother] at hkind; exact hkind.elim))
  next =>
    rw [hresults]
    exact (applyKernel_fillsOutput hkind read).ignoresContents (htype ▸ rfl)

/-- A save gives its target the value of its input. -/
theorem evaluate_target_of_save (hbuilt : verified.graph.Built)
    (hnode : verified.nodes[count]? = some node) {input : Handle} {output : Nat}
    (hkind : node.kind = .save input output) :
    verified.graph.evaluate bindings (node.target count) =
      verified.graph.valueBefore bindings count input := by
  obtain ⟨hbefore, target, type, htarget, htargetKind, -⟩ :=
    verified.target_of_save hnode hkind
  obtain ⟨saving, source, hsaving, hsavingKind, hsource, hsaved⟩ :=
    hbuilt.savedInput?_eq htarget (Node.isOutput_iff.mpr ⟨type, htargetKind⟩)
  have hcount := (hbuilt.wellBuilt.saveFollows hnode hkind).1
  rw [hcount] at hnode
  obtain rfl : saving = node := Option.some.inj (hsaving.symm.trans hnode)
  rw [hkind] at hsavingKind
  obtain rfl := (NodeKind.save.inj hsavingKind).1
  rw [Node.target_of_save hkind, Graph.evaluate_eq _ _ htarget, Graph.nodeValue, htargetKind]
  simp only [hsaved, Graph.valueBefore, if_pos hsource]
  rw [if_pos (by omega)]

/-- A node that computes applies its kernel to the values of its operands. -/
theorem evaluate_target_of_computes (hnode : verified.nodes[count]? = some node)
    (hkind : node.kind.Computes) {current : Tensor}
    (hcurrent : Buffer.Fits node (.owned current)) :
    verified.graph.evaluate bindings (node.target count) =
      applyKernel node.kind (verified.graph.valueBefore bindings count) current := by
  rw [Node.target_of_computes hkind, Graph.evaluate_eq _ _ hnode,
    nodeValue_of_computes hnode hkind hcurrent]

/-- A node that is executed reads the values of its operands. -/
theorem readOperand_eq_valueBefore (hbuilt : verified.graph.Built)
    (hsettled : verified.graph.Settled bindings (held buffers) count)
    (hnode : verified.nodes[count]? = some node) {value : Handle}
    (hvalue : value ∈ node.kind.operands) :
    readOperand buffers count value = verified.graph.valueBefore bindings count value := by
  obtain ⟨hbefore, tensor, hheld, hread⟩ := hsettled.operand hbuilt hnode hvalue
  unfold held at hheld
  rw [hread, readOperand, if_pos hbefore, hheld]

/-- Executing a node writes the value of its target. -/
theorem executeNode_eq_evaluate (hbuilt : verified.graph.Built)
    (hfitted : Fitted verified buffers)
    (hsettled : verified.graph.Settled bindings (held buffers) count)
    (hnode : verified.nodes[count]? = some node) (hvariable : node.isVariable = false) :
    executeNode node count buffers =
      (verified.graph.evaluate bindings (node.target count) >>= fun tensor =>
        .ok (tensor.sizeBytes,
          buffers.setIfInBounds (node.target count) (.owned tensor))) := by
  have hread {value : Handle} (hvalue : value ∈ node.kind.operands) :=
    readOperand_eq_valueBefore hbuilt hsettled hnode hvalue
  rcases node.kind.variable_or_save_or_computes with hkind | ⟨input, output, hkind⟩ | hkind
  · exact absurd hkind (by simpa [Node.isVariable] using hvariable)
  · obtain ⟨hbefore, -⟩ := verified.target_of_save hnode hkind
    rw [executeNode_of_save hkind hbefore, hread (by simp [hkind, NodeKind.operands]),
      evaluate_target_of_save hbuilt hnode hkind, Node.target_of_save hkind]
  · obtain ⟨hconstant, type, hresults⟩ := verified.result_of_computes hnode hkind
    obtain ⟨buffer, hbuffer, hfits⟩ := hfitted.exists_buffer hnode
    obtain ⟨current, rfl, -⟩ := (Buffer.fits_iff_of_result hconstant hresults).mp hfits
    rw [executeNode_of_computes hkind count hbuffer, evaluate_target_of_computes hnode hkind hfits,
      Node.target_of_computes hkind, applyKernel_congr_read fun value => hread]

/-- Executing a node evaluates its target. -/
theorem executeStep_evaluates (hbuilt : verified.graph.Built) :
    Evaluates Buffer.Fits verified bindings held id executeStep := by
  intro count node buffers hnode hvariable hfitted hsettled
  have hexecute := executeNode_eq_evaluate hbuilt hfitted hsettled hnode hvariable
  cases hvalue : verified.graph.evaluate bindings (node.target count) with
  | error cause =>
      rw [hvalue, error_bind] at hexecute
      simp only [executeStep, hexecute]
      rfl
  | ok tensor =>
      rw [hvalue, ok_bind] at hexecute
      refine ⟨_, by rw [executeStep, hexecute]; rfl, ?_⟩
      refine hsettled.afterExecution hbuilt hnode hvalue (fun other hother => ?_)
        fun position hposition => ?_
      · have hinside := (Array.getElem?_eq_some_iff.mp hother).1
        rw [held_set, if_pos ⟨rfl, hfitted.size_eq ▸ hinside⟩]
      · rw [held_set, if_neg fun hwritten => hposition hwritten.1]

theorem executeNodes_settles (hbuilt : verified.graph.Built)
    (hfitted : Fitted verified buffers)
    (hsettled : verified.graph.Settled bindings (held buffers) 0) (profiling : Bool) :
    (executeNodes profiling verified.nodes.toList.zipIdx buffers .empty).1 =
        verified.graph.evaluateNodes bindings profiling verified.nodes.toList.zipIdx .empty ∧
      ∀ done, (executeNodes profiling verified.nodes.toList.zipIdx buffers .empty).1 =
          .ok done →
        verified.graph.Settled bindings
          (held (executeNodes profiling verified.nodes.toList.zipIdx buffers .empty).2)
          verified.nodes.size := by
  obtain ⟨hmetrics, hlast⟩ := executeEach_settles hbuilt (executeStep_evaluates hbuilt)
    (Fitted.executeStep_preserves verified) profiling hfitted hsettled
  refine ⟨hmetrics.trans ?_, hlast⟩
  cases verified.graph.evaluateNodes bindings profiling verified.nodes.toList.zipIdx .empty <;> rfl

/-- Once its placeholders are bound, an engine has settled the variables that are no
outputs. -/
theorem settled_of_bound (hfitted : Fitted verified buffers)
    (hbound : ∀ placeholder ∈ verified.placeholders, Bound bindings buffers placeholder) :
    verified.graph.Settled bindings (held buffers) 0 := by
  refine .of_variables ?_ ?_
  · intro position node tensor hnode hconstant
    obtain ⟨buffer, hbuffer, hfits⟩ := hfitted.exists_buffer hnode
    simp only [Buffer.Fits, hconstant] at hfits
    subst hfits
    simp only [held, hbuffer, Option.bind_some, Buffer.tensor?]
  · intro placeholder hmem
    obtain ⟨tensor, htensor, hbuffer⟩ := hbound placeholder hmem
    exact ⟨tensor, htensor, by simp only [held, hbuffer, Option.bind_some, Buffer.tensor?]⟩

end Engine

namespace VerifiedGraph

/-- The values of the output variables, in order of creation. -/
def outputValues (verified : VerifiedGraph) (bindings : Bindings) : List (String × Tensor) :=
  verified.outputs.filterMap fun (position, node) =>
    (verified.graph.evaluate bindings position).toOption.map fun tensor => (node.name, tensor)

/-- What a run returns, by the values of the nodes alone. -/
def evaluateRun (verified : VerifiedGraph) (profiling : Bool) (bindings : Bindings) :
    Except RunError RunOutput := do
  verified.placeholders.forM fun placeholder =>
    Engine.boundTensor bindings placeholder.2 >>= fun _ => .ok ()
  let metrics ← verified.graph.evaluateNodes bindings profiling
    verified.nodes.toList.zipIdx .empty
  return ⟨verified.outputValues bindings, metrics⟩

end VerifiedGraph

/-- What is held in the end for the output variables are their values. -/
theorem Graph.Settled.outputValues_eq {verified : VerifiedGraph} {bindings : Bindings}
    {held : Nat → Option Tensor} (hbuilt : verified.graph.Built)
    (hsettled : verified.graph.Settled bindings held verified.nodes.size) :
    (verified.outputs.filterMap fun (position, node) =>
        (held position).map fun tensor => (node.name, tensor)) =
      verified.outputValues bindings ∧
    (verified.outputValues bindings).map (fun (name, tensor) => (name, Except.ok tensor)) =
      verified.outputs.map fun (position, node) =>
        (node.name, verified.graph.evaluate bindings position) := by
  have hvalues (output : Nat × Node) (hmem : output ∈ verified.outputs) :=
    hsettled.output_value hbuilt hmem
  unfold VerifiedGraph.outputValues
  generalize verified.outputs = outputs at hvalues ⊢
  induction outputs with
  | nil => exact ⟨rfl, rfl⟩
  | cons output outputs ih =>
      rw [List.forall_mem_cons] at hvalues
      obtain ⟨⟨tensor, hheld, hvalue⟩, hrest⟩ := hvalues
      obtain ⟨hread, hmap⟩ := ih hrest
      simp only [List.filterMap_cons, hheld, hvalue, Except.toOption, Option.map_some,
        List.map_cons]
      exact ⟨congrArg _ hread, congrArg _ hmap⟩

namespace Engine

variable {verified : VerifiedGraph} {bindings : Bindings} {buffers : Array Buffer}

theorem readOutputs_eq_outputValues (hbuilt : verified.graph.Built)
    (hsettled : verified.graph.Settled bindings (held buffers) verified.nodes.size) :
    readOutputs verified buffers = verified.outputValues bindings :=
  (hsettled.outputValues_eq hbuilt).1

/-- A run returns what the graph evaluates to, whatever the buffers held before. -/
theorem run_eq_evaluateRun (hbuilt : verified.graph.Built) (profiling : Bool)
    (hfitted : Fitted verified buffers) :
    (run ⟨verified, profiling, buffers⟩ bindings).1 =
        verified.evaluateRun profiling bindings ∧
      ∀ output, (run ⟨verified, profiling, buffers⟩ bindings).1 = .ok output →
        output.outputs.map (fun (name, tensor) => (name, Except.ok tensor)) =
          verified.outputs.map fun (position, node) =>
            (node.name, verified.graph.evaluate bindings position) := by
  have hasked (outcome : Except RunError Unit) (bound : Array Buffer)
      (hbind : bindPlaceholders bindings verified.placeholders buffers = (outcome, bound)) :
      (verified.placeholders.forM fun placeholder =>
        boundTensor bindings placeholder.2 >>= fun _ => .ok ()) = outcome := by
    rw [← bindPlaceholders_fst verified.placeholders buffers, hbind]
  have hexecuted (bound : Array Buffer)
      (hbind : bindPlaceholders bindings verified.placeholders buffers = (.ok (), bound)) :=
    executeNodes_settles hbuilt (hfitted.of_bindPlaceholders hbind)
      (settled_of_bound (hfitted.of_bindPlaceholders hbind) fun placeholder hmem => by
        have hbound := bindPlaceholders_bound hfitted.size_eq (congrArg Prod.fst hbind) hmem
        rwa [hbind] at hbound)
      profiling
  unfold VerifiedGraph.evaluateRun
  rcases run_cases verified profiling buffers bindings with
    ⟨error, bound, hbind, hrun⟩ | ⟨bound, hbind, ⟨error, last, hexecute, hrun⟩ |
      ⟨metrics, last, hexecute, hrun⟩⟩
  · rw [hrun, hasked _ _ hbind, error_bind]
    exact ⟨rfl, fun output houtput => by cases houtput⟩
  · obtain ⟨hmetrics, -⟩ := hexecuted bound hbind
    rw [hexecute] at hmetrics
    rw [hrun, hasked _ _ hbind, ok_bind, ← hmetrics, error_bind]
    exact ⟨rfl, fun output houtput => by cases houtput⟩
  · obtain ⟨hmetrics, hsettled⟩ := hexecuted bound hbind
    rw [hexecute] at hmetrics hsettled
    have hlast := hsettled metrics rfl
    obtain ⟨-, hvalues⟩ := hlast.outputValues_eq hbuilt
    rw [hrun, hasked _ _ hbind, ok_bind, ← hmetrics, ok_bind,
      readOutputs_eq_outputValues hbuilt hlast]
    refine ⟨rfl, fun output houtput => ?_⟩
    obtain rfl := Except.ok.inj houtput
    exact hvalues

end Engine

/-- A session that builds a graph which puts its input behind itself. -/
def doublingSession : List BuildStep :=
  [.create (.placeholder "x" ⟨.i32, ⟨[2]⟩⟩), .create (.concat "twice" [.first 0, .first 0] 0),
    .create (.save "y" (.first 1))]

def doublingGraph : Graph where
  name := "g"
  nodes := #[
    ⟨"x", .variable .placeholder ⟨.i32, ⟨[2]⟩⟩, [⟨.i32, ⟨[2]⟩⟩]⟩,
    ⟨"twice", .concat [.first 0, .first 0] 0, [⟨.i32, ⟨[4]⟩⟩]⟩,
    ⟨"y", .variable .output ⟨.i32, ⟨[4]⟩⟩, [⟨.i32, ⟨[4]⟩⟩]⟩,
    ⟨"save_y", .save (.first 1) 2, []⟩]

def pairBinding (a b : Int32) : Bindings :=
  Bindings.empty.insert "x" ⟨.i32, ⟨[2]⟩, #[a, b], rfl⟩

theorem verify_doublingSession (hcheck : doublingGraph.check = .ok ()) :
    ((Building.start "g").run doublingSession).graph.verify = .ok ⟨doublingGraph, hcheck⟩ := by
  have hgraph : ((Building.start "g").run doublingSession).graph = doublingGraph := by
    with_unfolding_all rfl
  rw [hgraph]
  exact Graph.verify_eq_ok_of_check hcheck

theorem doublingGraph_withinEdge : doublingGraph.PoolsWithinEdge := by
  intro node hnode input pool type hkind
  simp [doublingGraph] at hnode
  rcases hnode with rfl | rfl | rfl | rfl <;> cases hkind

theorem evaluate_doublingGraph (a b : Int32) :
    doublingGraph.evaluate (pairBinding a b) 2 = .ok ⟨.i32, ⟨[4]⟩, #[a, b, a, b], rfl⟩ := by
  have hinput : doublingGraph.evaluate (pairBinding a b) 0 =
      .ok ⟨.i32, ⟨[2]⟩, #[a, b], rfl⟩ := (Graph.evaluate_eq _ _ rfl).trans rfl
  have hread : doublingGraph.valueBefore (pairBinding a b) 1 (.first 0) =
      .ok ⟨.i32, ⟨[2]⟩, #[a, b], rfl⟩ := (if_pos Nat.zero_lt_one).trans hinput
  have hjoined : doublingGraph.evaluate (pairBinding a b) 1 =
      .ok ⟨.i32, ⟨[4]⟩, #[a, b, a, b], rfl⟩ := by
    have htwice : doublingGraph.nodes[1]? =
        some ⟨"twice", .concat [.first 0, .first 0] 0, [⟨.i32, ⟨[4]⟩⟩]⟩ := rfl
    rw [Graph.evaluate_eq _ _ htwice]
    simp only [Graph.nodeValue, Engine.applyKernel, List.mapM_cons, List.mapM_nil, hread, ok_bind]
    rfl
  have hread : doublingGraph.valueBefore (pairBinding a b) 2 (.first 1) =
      .ok ⟨.i32, ⟨[4]⟩, #[a, b, a, b], rfl⟩ := (if_pos Nat.one_lt_two).trans hjoined
  have hy : doublingGraph.nodes[2]? =
      some ⟨"y", .variable .output ⟨.i32, ⟨[4]⟩⟩, [⟨.i32, ⟨[4]⟩⟩]⟩ := rfl
  rw [Graph.evaluate_eq _ _ hy]
  exact hread

end NetImport
