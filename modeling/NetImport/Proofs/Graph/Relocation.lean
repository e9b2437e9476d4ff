import NetImport.Proofs.Execution.Kernels
import NetImport.Proofs.Graph.Growth

/-!
# Graphs behind other graphs

The nodes of a graph can be placed behind those of another one, when they refer to each other
by positions that are counted from there.  Builders work there as they do at the beginning:
they accept the same nodes with the same types and refuse the others for the same reasons, as
long as the variables in front have names of their own.
-/

namespace NetImport

/-! ## Counting from further on -/

/-- The same result of a node that stands further on. -/
def Handle.shift (value : Handle) (count : Nat) : Handle := ⟨value.node + count, value.result⟩

def NodeKind.shift (kind : NodeKind) (count : Nat) : NodeKind :=
  match kind with
  | .variable role type => .variable role type
  | .convolution input filter bias params =>
      .convolution (input.shift count) (filter.shift count) (bias.map (·.shift count)) params
  | .pooling input params => .pooling (input.shift count) params
  | .matrixProduct lhs rhs => .matrixProduct (lhs.shift count) (rhs.shift count)
  | .transpose input perm => .transpose (input.shift count) perm
  | .reshape input dims => .reshape (input.shift count) dims
  | .slice input start size => .slice (input.shift count) start size
  | .concat inputs axis => .concat (inputs.map (·.shift count)) axis
  | .broadcast input axis dims => .broadcast (input.shift count) axis dims
  | .splat value type => .splat value type
  | .isNaN input => .isNaN (input.shift count)
  | .select cond onTrue onFalse =>
      .select (cond.shift count) (onTrue.shift count) (onFalse.shift count)
  | .clip input low high => .clip (input.shift count) low high
  | .arithmetic op lhs rhs => .arithmetic op (lhs.shift count) (rhs.shift count)
  | .unary op input => .unary op (input.shift count)
  | .softmax input => .softmax (input.shift count)
  | .save input output => .save (input.shift count) (output + count)

def Node.shift (node : Node) (count : Nat) : Node := { node with kind := node.kind.shift count }

@[simp] theorem Handle.shift_zero (value : Handle) : value.shift 0 = value := rfl

@[simp] theorem NodeKind.shift_zero (kind : NodeKind) : kind.shift 0 = kind := by
  cases kind <;> simp [shift]

@[simp] theorem Node.shift_zero (node : Node) : node.shift 0 = node := by
  simp [shift]

@[simp] theorem NodeKind.isVariable_shift (kind : NodeKind) (count : Nat) :
    (kind.shift count).isVariable = kind.isVariable := by
  cases kind <;> rfl

@[simp] theorem Node.isVariable_shift (node : Node) (count : Nat) :
    (node.shift count).isVariable = node.isVariable :=
  node.kind.isVariable_shift count

@[simp] theorem Node.constant?_shift (node : Node) (count : Nat) :
    (node.shift count).constant? = node.constant? := by
  rcases node with ⟨name, kind, results⟩
  cases kind <;> rfl

namespace Graph

/-- The nodes of a graph behind those of another one. -/
def followedBy (before graph : Graph) : Graph where
  name := before.name
  nodes := before.nodes ++ graph.nodes.map (·.shift before.nodes.size)

variable {before graph : Graph}

theorem followedBy_empty (before : Graph) (name : String) :
    before.followedBy (empty name) = before := by
  simp [followedBy, empty]

/-- Nothing changes behind a graph without nodes. -/
theorem empty_followedBy (graph : Graph) : (empty graph.name).followedBy graph = graph := by
  simp [followedBy, empty]

theorem size_followedBy (before graph : Graph) :
    (before.followedBy graph).nodes.size = graph.nodes.size + before.nodes.size := by
  simp [followedBy, Nat.add_comm]

theorem getElem?_followedBy (before graph : Graph) (position : Nat) :
    (before.followedBy graph).nodes[position + before.nodes.size]? =
      graph.nodes[position]?.map (·.shift before.nodes.size) := by
  rw [followedBy, Array.getElem?_append_right (Nat.le_add_left ..), Nat.add_sub_cancel,
    Array.getElem?_map]

theorem followedBy_push (before : Graph) (name : String) (nodes : Array Node) (node : Node) :
    before.followedBy ⟨name, nodes.push node⟩ =
      ⟨before.name, (before.followedBy ⟨name, nodes⟩).nodes.push
        (node.shift before.nodes.size)⟩ := by
  simp [followedBy]

theorem valueType_followedBy {value : Handle} {type : TensorType}
    (htype : graph.valueType value = .ok type) :
    (before.followedBy graph).valueType (value.shift before.nodes.size) = .ok type := by
  obtain ⟨node, hnode, hresult⟩ := Typing.operand_eq_ok_iff.mp htype
  apply Typing.operand_eq_ok_iff.mpr
  refine ⟨node.shift before.nodes.size, ?_, hresult⟩
  rw [Handle.shift, getElem?_followedBy, hnode, Option.map_some]

/-- A name that no variable in front has is taken behind it when it was taken before. -/
theorem findVariable?_followedBy {name : String} (hfree : before.findVariable? name = none) :
    ((before.followedBy graph).findVariable? name).isSome =
      (graph.findVariable? name).isSome := by
  have hfront := findVariable?_eq_none_iff.mp hfree
  have hnone : (before.followedBy graph).findVariable? name = none ↔
      graph.findVariable? name = none := by
    rw [findVariable?_eq_none_iff, findVariable?_eq_none_iff]
    constructor
    · intro hall node hnode hvariable
      have hmem : node.shift before.nodes.size ∈ (before.followedBy graph).nodes := by
        simp only [followedBy, Array.mem_append, Array.mem_map]
        exact .inr ⟨node, hnode, rfl⟩
      exact hall (node.shift before.nodes.size) hmem ((node.isVariable_shift _).trans hvariable)
    · intro hall node hnode hvariable
      rcases Array.mem_append.mp hnode with hold | hnew
      · exact hfront node hold hvariable
      · obtain ⟨other, hother, rfl⟩ := Array.mem_map.mp hnew
        exact hall other hother ((other.isVariable_shift _).symm.trans hvariable)
  by_cases htaken : graph.findVariable? name = none
  · rw [hnone.mpr htaken, htaken]
  · rw [Option.isSome_iff_ne_none.mpr htaken,
      Option.isSome_iff_ne_none.mpr fun hfree => htaken (hnone.mp hfree)]

end Graph

/-! ## Typing -/

namespace Typing

/-- A node that is no save types by the types of its operands, wherever they are. -/
theorem infer_shift {kind : NodeKind} {defined defined' : Array Node} {count : Nat}
    (hkind : kind.StandsAlone)
    (hoperands : ∀ value ∈ kind.operands,
      operand defined' (value.shift count) = operand defined value) :
    infer (kind.shift count) defined' = infer kind defined := by
  cases kind with
  | convolution input filter bias params =>
      have hinput := hoperands input (by simp [NodeKind.operands])
      have hfilter := hoperands filter (by simp [NodeKind.operands])
      cases bias with
      | none =>
          simp only [NodeKind.shift, infer, hinput, hfilter, Option.map_none, convolutionType]
      | some bias =>
          have hbias := hoperands bias (by simp [NodeKind.operands])
          simp only [NodeKind.shift, infer, hinput, hfilter, Option.map_some, convolutionType,
            hbias]
  | concat inputs axis =>
      have hinputs : (inputs.map (·.shift count)).mapM (operand defined') =
          inputs.mapM (operand defined) := by
        rw [List.mapM_map]
        exact mapM_congr hoperands
      simp only [NodeKind.shift, infer, hinputs]
  | save input output => exact absurd rfl (hkind.2 input output)
  | _ =>
      simp only [NodeKind.operands, List.forall_mem_cons, List.not_mem_nil, false_imp_iff,
        implies_true, and_true] at hoperands
      simp only [NodeKind.shift, infer, hoperands]

end Typing

/-! ## Builders -/

namespace Graph

variable {before graph : Graph} {name : String}

theorem append_eq (graph : Graph) (name : String) (kind : NodeKind) :
    graph.append name kind = (Typing.infer kind graph.nodes >>= fun results =>
      if kind.isVariable && (graph.findVariable? name).isSome then .error (.duplicateName name)
      else .ok (⟨graph.name, graph.nodes.push ⟨name, kind, results⟩⟩,
        .first graph.nodes.size)) :=
  rfl

/-- Behind another graph a builder does what it does at the beginning. -/
theorem append_followedBy {kind : NodeKind} (hkind : kind.StandsAlone)
    (hoperands : ∀ value ∈ kind.operands, ∃ type, graph.valueType value = .ok type)
    (hfree : kind.isVariable → before.findVariable? name = none) :
    (before.followedBy graph).append name (kind.shift before.nodes.size) =
      (graph.append name kind).map fun (next, value) =>
        (before.followedBy next, value.shift before.nodes.size) := by
  have hinfer : Typing.infer (kind.shift before.nodes.size) (before.followedBy graph).nodes =
      Typing.infer kind graph.nodes := by
    apply Typing.infer_shift hkind
    intro value hvalue
    obtain ⟨type, htype⟩ := hoperands value hvalue
    exact (valueType_followedBy htype).trans htype.symm
  have htaken : ((kind.shift before.nodes.size).isVariable &&
        ((before.followedBy graph).findVariable? name).isSome) =
      (kind.isVariable && (graph.findVariable? name).isSome) := by
    rw [NodeKind.isVariable_shift]
    by_cases hvariable : kind.isVariable
    · rw [findVariable?_followedBy (hfree hvariable)]
    · simp [hvariable]
  rw [append_eq, append_eq, hinfer, htaken]
  cases Typing.infer kind graph.nodes with
  | error error => rfl
  | ok results =>
      rw [ok_bind, ok_bind]
      by_cases hconflict : (kind.isVariable && (graph.findVariable? name).isSome) = true
      · rw [if_pos hconflict, if_pos hconflict]
        rfl
      · rw [if_neg hconflict, if_neg hconflict, size_followedBy, Except.map]
        dsimp only
        rw [followedBy_push]
        rfl

/-- A value that has a type is saved unless the name is taken. -/
theorem saveInPlace_eq {input : Handle} {type : TensorType}
    (htype : graph.valueType input = .ok type) :
    graph.saveInPlace name input =
      if (graph.findVariable? name).isSome then (.error (.duplicateName name), graph)
      else (.ok (.first graph.nodes.size), ⟨graph.name,
        (graph.nodes.push ⟨name, .variable .output type, [type]⟩).push
          ⟨"save_" ++ name, .save input graph.nodes.size, []⟩⟩) := by
  have hvariable : graph.append name (.variable .output type) =
      if (graph.findVariable? name).isSome then .error (.duplicateName name)
      else .ok (⟨graph.name, graph.nodes.push ⟨name, .variable .output type, [type]⟩⟩,
        .first graph.nodes.size) :=
    rfl
  rw [saveInPlace, htype]
  by_cases htaken : (graph.findVariable? name).isSome = true
  · rw [if_pos htaken] at hvariable ⊢
    simp only [hvariable]
  · rw [if_neg htaken] at hvariable ⊢
    have hbound := Typing.lt_size_of_operand htype
    have hinput : Typing.operand
        (graph.nodes.push ⟨name, .variable .output type, [type]⟩) input = .ok type := by
      obtain ⟨node, hnode, hresult⟩ := Typing.operand_eq_ok_iff.mp htype
      apply Typing.operand_eq_ok_iff.mpr
      refine ⟨node, ?_, hresult⟩
      rw [Array.getElem?_push, if_neg (by omega), hnode]
    have hinfer : Typing.infer (.save input graph.nodes.size)
        (graph.nodes.push ⟨name, .variable .output type, [type]⟩) = .ok [] := by
      simp [Typing.infer, hinput, Typing.checkSave, Typing.expectDType, Typing.expectShape]
    have hsave : append ⟨graph.name, graph.nodes.push ⟨name, .variable .output type, [type]⟩⟩
        ("save_" ++ name) (.save input graph.nodes.size) = .ok (⟨graph.name,
          (graph.nodes.push ⟨name, .variable .output type, [type]⟩).push
            ⟨"save_" ++ name, .save input graph.nodes.size, []⟩⟩,
          .first (graph.nodes.size + 1)) := by
      rw [append_eq, hinfer, ok_bind]
      simp [NodeKind.isVariable]
    simp only [hvariable, Handle.first, hsave]

/-- Behind another graph a value is saved as it is at the beginning. -/
theorem saveInPlace_followedBy {input : Handle} {type : TensorType}
    (htype : graph.valueType input = .ok type) (hfree : before.findVariable? name = none) :
    (before.followedBy graph).saveInPlace name (input.shift before.nodes.size) =
      ((graph.saveInPlace name input).1.map (·.shift before.nodes.size),
        before.followedBy (graph.saveInPlace name input).2) := by
  rw [saveInPlace_eq htype, saveInPlace_eq (valueType_followedBy htype),
    findVariable?_followedBy hfree]
  by_cases htaken : (graph.findVariable? name).isSome = true
  · rw [if_pos htaken, if_pos htaken]
    rfl
  · rw [if_neg htaken, if_neg htaken, size_followedBy]
    dsimp only
    rw [followedBy_push, followedBy_push]
    rfl

end Graph
end NetImport
