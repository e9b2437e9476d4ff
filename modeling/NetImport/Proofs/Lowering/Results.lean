import NetImport.Lowering.Dispatch
import NetImport.Proofs.Lowering.Growth
import Mathlib.Data.List.Forall2

/-!
# What an operator leaves behind

An operator that is lowered has appended nodes that compute and bound its first output to
a value.  Concatenations and reshapes bind a second output too, where they declare one, to
a constant that they append last.  Nothing else is appended or bound.
-/

namespace NetImport

/-- The kinds of operator with a second output of their own. -/
def OperatorKind.hasAuxiliary : OperatorKind → Bool
  | .concat => true
  | .reshape => true
  | _ => false

namespace Operator

/-- The second output of an operator that has one of its own, where it is declared. -/
def auxiliary? (op : Operator) : Option String :=
  if (OperatorKind.parse? op.kind).any OperatorKind.hasAuxiliary then op.outputs[1]? else none

/-- The names that an operator binds. -/
def boundNames (op : Operator) : List String := op.outputs[0]?.toList ++ op.auxiliary?.toList

/-- The second outputs of operators, with the operators that they belong to. -/
def auxiliaries (ops : List Operator) : List (Operator × String) :=
  ops.flatMap fun op => op.auxiliary?.toList.map fun name => (op, name)

end Operator

namespace Workspace

/-- The nodes and the bindings that one workspace has beyond another. -/
structure Appends (start last : Workspace) (nodes : List Node)
    (bindings : List (String × Handle)) : Prop where
  name_eq : last.graph.name = start.graph.name
  nodes_eq : last.graph.nodes.toList = start.graph.nodes.toList ++ nodes
  entries_eq : last.env.entries = start.env.entries ++ bindings

variable {start middle last : Workspace} {nodes nodes' : List Node}
  {bindings bindings' : List (String × Handle)}

theorem Appends.refl (work : Workspace) : work.Appends work [] [] := by
  constructor <;> simp

theorem Appends.trans (hfirst : start.Appends middle nodes bindings)
    (hsecond : middle.Appends last nodes' bindings') :
    start.Appends last (nodes ++ nodes') (bindings ++ bindings') := by
  constructor
  · rw [hsecond.name_eq, hfirst.name_eq]
  · rw [hsecond.nodes_eq, hfirst.nodes_eq, List.append_assoc]
  · rw [hsecond.entries_eq, hfirst.entries_eq, List.append_assoc]

theorem Appends.size_eq (happends : start.Appends last nodes bindings) :
    last.graph.nodes.size = start.graph.nodes.size + nodes.length := by
  have hlength := congrArg List.length happends.nodes_eq
  simpa using hlength

theorem Appends.env_eq (happends : start.Appends last nodes []) : last.env = start.env := by
  have hentries := happends.entries_eq
  rw [List.append_nil] at hentries
  rcases last with ⟨_, entries, _⟩
  obtain rfl := hentries
  rfl

theorem Appends.graph_eq (happends : start.Appends last [] bindings) :
    last.graph = start.graph := by
  have hnodes := happends.nodes_eq
  rw [List.append_nil, Array.toList_inj] at hnodes
  rcases last with ⟨⟨_, _⟩, _⟩
  obtain rfl := happends.name_eq
  obtain rfl := hnodes
  rfl

/-- Values keep their types. -/
theorem Appends.valueType_eq (happends : start.Appends last nodes bindings) {value : Handle}
    {type : TensorType} (htype : start.graph.valueType value = .ok type) :
    last.graph.valueType value = .ok type := by
  obtain ⟨node, hnode, hresult⟩ := Typing.operand_eq_ok_iff.mp htype
  refine Typing.operand_eq_ok_iff.mpr ⟨node, ?_, hresult⟩
  rw [← Array.getElem?_toList] at hnode ⊢
  have hbound := (List.getElem?_eq_some_iff.mp hnode).1
  rw [happends.nodes_eq, List.getElem?_append_left hbound, hnode]

theorem appends_of_append {work : Workspace} {name : String} {kind : NodeKind} {next : Graph}
    {value : Handle} (happend : work.graph.append name kind = .ok (next, value)) :
    ∃ results, Typing.infer kind work.graph.nodes = .ok results ∧
      work.Appends { work with graph := next } [⟨name, kind, results⟩] [] ∧
      value = .first work.graph.nodes.size := by
  obtain ⟨results, hinfer, -, rfl, rfl⟩ := Graph.append_eq_ok_iff.mp happend
  refine ⟨results, hinfer, ⟨rfl, ?_, ?_⟩, rfl⟩ <;> simp

theorem appends_of_bind {work : Workspace} {name : String} {value : Handle} {env : Environment}
    (hbind : work.env.bind name value = .ok env) :
    work.Appends { work with env := env } [] [(name, value)] := by
  unfold Environment.bind at hbind
  split at hbind
  · cases hbind
  · cases hbind
    constructor <;> simp

theorem Computes.appends (hcomputes : start.Computes last) :
    ∃ nodes, start.Appends last nodes [] ∧ ∀ node ∈ nodes, node.kind.Computes := by
  induction hcomputes with
  | refl => exact ⟨[], .refl start, by simp⟩
  | append _ hkind happend ih =>
      obtain ⟨nodes, hnodes, hcompute⟩ := ih
      obtain ⟨results, -, hlast, -⟩ := appends_of_append happend
      refine ⟨_, hnodes.trans hlast, fun node hnode => ?_⟩
      rcases List.mem_append.mp hnode with hold | hnew
      · exact hcompute node hold
      · rw [List.mem_singleton.mp hnew]
        exact hkind

theorem Grows.appends (hgrows : start.Grows last) :
    ∃ nodes bindings, start.Appends last nodes bindings := by
  induction hgrows with
  | refl => exact ⟨[], [], .refl start⟩
  | append _ _ happend ih =>
      obtain ⟨nodes, bindings, hbefore⟩ := ih
      obtain ⟨results, -, hlast, -⟩ := appends_of_append happend
      exact ⟨_, _, hbefore.trans hlast⟩
  | bind _ hbind ih =>
      obtain ⟨nodes, bindings, hbefore⟩ := ih
      exact ⟨_, _, hbefore.trans (appends_of_bind hbind)⟩

/-- What operators have appended and bound, one operator after the other.  The variables
among the nodes are constants for second outputs. -/
structure Lowers (ops : List Operator) (start last : Workspace) (nodes : List Node)
    (bindings : List (String × Handle)) : Prop where
  appends : start.Appends last nodes bindings
  boundNames : bindings.map Prod.fst = ops.flatMap Operator.boundNames
  inner : ∀ node ∈ nodes, node.kind.Inner
  constants : List.Forall₂
    (fun (second : Operator × String) (constant : Node × Nat) =>
      constant.1.name = Lowering.nodeName second.1 second.2 ∧
        (second.2, Handle.first constant.2) ∈ bindings)
    (Operator.auxiliaries ops)
    ((nodes.zipIdx start.graph.nodes.size).filter fun entry => entry.1.isVariable)

theorem Lowers.nil (work : Workspace) : Lowers [] work work [] [] where
  appends := .refl work
  boundNames := rfl
  inner := by simp
  constants := .nil

theorem Lowers.append {ops ops' : List Operator}
    (hfirst : Lowers ops start middle nodes bindings)
    (hsecond : Lowers ops' middle last nodes' bindings') :
    Lowers (ops ++ ops') start last (nodes ++ nodes') (bindings ++ bindings') where
  appends := hfirst.appends.trans hsecond.appends
  boundNames := by
    rw [List.map_append, List.flatMap_append, hfirst.boundNames, hsecond.boundNames]
  inner := by
    intro node hnode
    rcases List.mem_append.mp hnode with hold | hnew
    · exact hfirst.inner node hold
    · exact hsecond.inner node hnew
  constants := by
    have hsize := hfirst.appends.size_eq
    rw [Operator.auxiliaries, List.flatMap_append, List.zipIdx_append, List.filter_append,
      ← hsize]
    refine List.rel_append (hfirst.constants.imp fun second constant hconstant => ?_)
      (hsecond.constants.imp fun second constant hconstant => ?_)
    · exact ⟨hconstant.1, List.mem_append_left _ hconstant.2⟩
    · exact ⟨hconstant.1, List.mem_append_right _ hconstant.2⟩

theorem Computes.lowers (hcomputes : start.Computes last) :
    ∃ nodes, Lowers [] start last nodes [] := by
  obtain ⟨nodes, happends, hcompute⟩ := hcomputes.appends
  have hnone : (nodes.zipIdx start.graph.nodes.size).filter
      (fun entry => entry.1.isVariable) = [] := by
    rw [List.filter_eq_nil_iff]
    intro entry hentry
    have hkind : entry.1.kind.Computes := hcompute _ (List.fst_mem_of_mem_zipIdx hentry)
    exact hkind.not_isVariable
  refine ⟨nodes, happends, rfl, fun node hnode => NodeKind.Computes.inner (hcompute node hnode), ?_⟩
  rw [hnone]
  exact .nil

/-- The first output of an operator without another one. -/
theorem lowers_one {op : Operator} {name : String} {value : Handle}
    (hone : op.auxiliary? = none) (hname : op.outputs[0]? = some name)
    (happends : start.Appends last [] [(name, value)]) :
    Lowers [op] start last [] [(name, value)] where
  appends := happends
  boundNames := by simp [Operator.boundNames, hone, hname]
  inner := by simp
  constants := by simp [Operator.auxiliaries, hone]

/-- The second output of an operator, which is a constant. -/
theorem lowers_two {op : Operator} {name second : String} {value : Handle} {node : Node}
    (hname : op.outputs[0]? = some name) (hsecond : op.auxiliary? = some second)
    (hnode : node.name = Lowering.nodeName op second) (hvariable : node.isVariable)
    (hinner : node.kind.Inner)
    (happends : start.Appends last [node]
      [(name, value), (second, .first start.graph.nodes.size)]) :
    Lowers [op] start last [node] [(name, value), (second, .first start.graph.nodes.size)] where
  appends := happends
  boundNames := by simp [Operator.boundNames, hname, hsecond]
  inner := by simpa using hinner
  constants := by simp [Operator.auxiliaries, hsecond, hvariable, hnode]

end Workspace

namespace Lowering

variable {α β : Type} {op : Operator} {work last : Workspace}

/-! ## Steps that bind -/

theorem appends_of_run_bindName {name : String} {value : Handle} {result : Unit}
    (hrun : (bindName name value).run.run work = (.ok result, last)) :
    work.Appends last [] [(name, value)] := by
  obtain ⟨env, hbind, rfl⟩ := run_bindName_eq_ok_iff.mp hrun
  exact Workspace.appends_of_bind hbind

theorem appends_of_run_bindOutput {index : Nat} {value : Handle} {result : Unit}
    (hrun : (bindOutput op index value).run.run work = (.ok result, last)) :
    ∃ name, op.outputs[index]? = some name ∧ work.Appends last [] [(name, value)] := by
  unfold bindOutput at hrun
  split at hrun
  · next name hname => exact ⟨name, hname, appends_of_run_bindName hrun⟩
  · cases hrun

theorem appends_of_run_append {refuse : GraphError → LoadError}
    {add : Graph → Except GraphError (Graph × Handle)} {name : String} {kind : NodeKind}
    {value : Handle} (hadd : ∀ graph, add graph = graph.append name kind)
    (hrun : (append refuse add).run.run work = (.ok value, last)) :
    ∃ results, Typing.infer kind work.graph.nodes = .ok results ∧
      work.Appends last [⟨name, kind, results⟩] [] ∧
      value = .first work.graph.nodes.size := by
  obtain ⟨graph, happend, rfl⟩ := run_append_eq_ok_iff.mp hrun
  rw [hadd] at happend
  exact Workspace.appends_of_append happend

theorem appends_of_run_bindConstantOutput {index : Nat} {name : String} {tensor : Tensor}
    {result : Unit} (hname : op.outputs[index]? = some name)
    (hrun : (bindConstantOutput op index tensor).run.run work = (.ok result, last)) :
    ∃ node, work.Appends last [node] [(name, .first work.graph.nodes.size)] ∧
      node.name = nodeName op name ∧ node.kind = .variable (.constant tensor) tensor.type := by
  unfold bindConstantOutput at hrun
  rw [hname] at hrun
  obtain ⟨value, next, hconstant, hbind⟩ := run_bind_eq_ok_iff.mp hrun
  obtain ⟨results, -, happends, rfl⟩ := appends_of_run_append (fun _ => rfl) hconstant
  exact ⟨_, happends.trans (appends_of_run_bindName hbind), rfl, rfl⟩

/-! ## Last steps -/

/-- A lowering appends nodes that compute, until it comes to a last step or fails before, for
another cause than a name that is taken. -/
structure ComesTo (step : Lowering α → Prop) (m : Lowering α) : Prop where
  run_comes : ∀ work : Workspace, ∃ next, work.Computes next ∧
    ((∃ error, error.NoConflict ∧ m.run.run work = (.error error, next)) ∨
      ∃ final, step final ∧ m.run.run work = final.run.run next)

section

variable {step : Lowering α → Prop}

theorem comesTo_self {m : Lowering α} (hm : step m) : ComesTo step m :=
  ⟨fun work => ⟨work, .refl, .inr ⟨m, hm, rfl⟩⟩⟩

theorem comesTo_throw {error : LoadError} (herror : error.NoConflict) :
    ComesTo step (throw error) :=
  ⟨fun work => ⟨work, .refl, .inl ⟨error, herror, rfl⟩⟩⟩

theorem comesTo_bind {m : Lowering β} {f : β → Lowering α} (hm : Computes m)
    (hf : ∀ a, ComesTo step (f a)) :
    ComesTo step (m >>= f) := by
  refine ⟨fun work => ?_⟩
  have hfirst := hm.leads.run_related work
  have herror := hm.refuses work
  rw [run_bind]
  rcases hrun : m.run.run work with ⟨error | a, next⟩ <;> rw [hrun] at hfirst herror
  · exact ⟨next, hfirst, .inl ⟨error, herror.holds rfl, rfl⟩⟩
  · obtain ⟨last, hrest, houtcome⟩ := (hf a).run_comes next
    exact ⟨last, hfirst.trans hrest, houtcome⟩

theorem comesTo_ite {c : Prop} [Decidable c] {yes no : Lowering α} (hyes : ComesTo step yes)
    (hno : ComesTo step no) :
    ComesTo step (if c then yes else no) := by
  split
  · exact hyes
  · exact hno

/-- A lowering grows the workspace when its last step does. -/
theorem ComesTo.grows {m : Lowering α} (hm : ComesTo step m)
    (hstep : ∀ final, step final → Leads Workspace.Grows final) :
    Leads Workspace.Grows m := by
  refine ⟨fun work => ?_⟩
  obtain ⟨next, hcomputes, ⟨error, -, hrun⟩ | ⟨final, hfinal, hrun⟩⟩ := hm.run_comes work
  · rw [hrun]
    exact hcomputes.grows
  · rw [hrun]
    exact hcomputes.grows.trans ((hstep final hfinal).run_related next)

end

/-- The first output is bound to a value. -/
def BindsOne (op : Operator) (final : Lowering Unit) : Prop :=
  ∃ value, final = bindOutput op 0 value

/-- The first output is bound to a value and the second one, where it is declared, to a
constant that is read. -/
def BindsTwo (op : Operator) (final : Lowering Unit) : Prop :=
  ∃ value tensor, ReadsProperly tensor ∧ final = do
    bindOutput op 0 value
    if 1 < op.outputs.length then bindConstantOutput op 1 (← ofExcept tensor)

/-- The last step of an operator of some kind. -/
def FinalStep (op : Operator) (kind : OperatorKind) (final : Lowering Unit) : Prop :=
  if kind.hasAuxiliary then BindsTwo op final else BindsOne op final

theorem grows_finalStep {kind : OperatorKind} {final : Lowering Unit}
    (hfinal : FinalStep op kind final) :
    Leads Workspace.Grows final := by
  unfold FinalStep at hfinal
  split at hfinal
  · obtain ⟨value, tensor, -, rfl⟩ := hfinal
    refine leads_bind (grows_bindOutput op 0 value) fun _ => leads_ite ?_ (leads_pure _)
    exact leads_bind (leads_ofExcept _) fun _ => grows_bindConstantOutput ..
  · obtain ⟨value, rfl⟩ := hfinal
    exact grows_bindOutput op 0 value

theorem run_ofExcept_eq_ok_iff {result : Except LoadError α} {a : α} :
    (ofExcept result).run.run work = (.ok a, last) ↔ result = .ok a ∧ last = work := by
  cases result with
  | ok value =>
      have hrun : (ofExcept (.ok value) : Lowering α).run.run work = (.ok value, work) := rfl
      rw [hrun, Prod.mk.injEq, eq_comm (a := work)]
  | error error =>
      have hrun : (ofExcept (.error error) : Lowering α).run.run work = (.error error, work) :=
        rfl
      rw [hrun]
      constructor
      · intro hok
        cases hok
      · rintro ⟨hok, -⟩
        cases hok

/-- What the last step of an operator leaves behind. -/
theorem lowers_of_run_finalStep {kind : OperatorKind} {final : Lowering Unit} {result : Unit}
    (hkind : OperatorKind.parse? op.kind = some kind) (hfinal : FinalStep op kind final)
    (hrun : final.run.run work = (.ok result, last)) :
    ∃ nodes bindings, Workspace.Lowers [op] work last nodes bindings := by
  unfold FinalStep at hfinal
  by_cases hauxiliary : kind.hasAuxiliary
  · rw [if_pos hauxiliary] at hfinal
    have hsecond : op.auxiliary? = op.outputs[1]? := by
      simp [Operator.auxiliary?, hkind, hauxiliary]
    obtain ⟨value, tensor, -, rfl⟩ := hfinal
    obtain ⟨_, next, hbind, hrest⟩ := run_bind_eq_ok_iff.mp hrun
    obtain ⟨name, hname, hfirst⟩ := appends_of_run_bindOutput hbind
    by_cases hdeclared : 1 < op.outputs.length
    · rw [if_pos hdeclared] at hrest
      obtain ⟨constant, middle, htensor, hconstant⟩ := run_bind_eq_ok_iff.mp hrest
      obtain ⟨-, rfl⟩ := run_ofExcept_eq_ok_iff.mp htensor
      have hget : op.outputs[1]? = some op.outputs[1] := List.getElem?_eq_getElem hdeclared
      obtain ⟨node, happends, hnode, hnodeKind⟩ := appends_of_run_bindConstantOutput hget hconstant
      rw [hfirst.size_eq] at happends
      refine ⟨_, _, Workspace.lowers_two hname (hsecond.trans hget) hnode ?_ ?_
        (hfirst.trans happends)⟩
      · rw [Node.isVariable, hnodeKind]
        rfl
      · rw [hnodeKind]
        trivial
    · rw [if_neg hdeclared, run_pure] at hrest
      obtain ⟨-, rfl⟩ := Prod.mk.inj hrest
      have hnone : op.auxiliary? = none := by
        rw [hsecond, List.getElem?_eq_none_iff]
        omega
      exact ⟨_, _, Workspace.lowers_one hnone hname hfirst⟩
  · rw [if_neg hauxiliary] at hfinal
    obtain ⟨value, rfl⟩ := hfinal
    obtain ⟨name, hname, hfirst⟩ := appends_of_run_bindOutput hrun
    have hnone : op.auxiliary? = none := by simp [Operator.auxiliary?, hkind, hauxiliary]
    exact ⟨_, _, Workspace.lowers_one hnone hname hfirst⟩

end Lowering
end NetImport
