import NetImport.Proofs.Graph.Invariant
import NetImport.Proofs.Lowering.OneOutput

/-!
# Operators that bind two outputs

A concatenation or a reshape binds its first output to the value that its steps come to, and
then a second one, where it declares one, to a constant node of its own.  It succeeds when the
steps do and both names are free, with the inner name of the constant.
-/

namespace NetImport

namespace Workspace

/-- The declared outputs of an operator have names of their own, which are not bound yet, and
no variable has the inner name of the second one. -/
structure FreeOutputs (work : Workspace) (op : Operator) : Prop where
  first : work.FreeOutput op
  second : ∀ name, op.outputs[1]? = some name → work.env.get? name = none ∧
    op.outputs[0]? ≠ some name ∧ work.graph.findVariable? (Lowering.nodeName op name) = none

/-- A value is a constant of the graph. -/
def IsConstant (work : Workspace) (value : Handle) (tensor : Tensor) : Prop :=
  ∃ node, work.graph.nodes[value.node]? = some node ∧
    node.kind = .variable (.constant tensor) tensor.type

variable {work next : Workspace} {op : Operator}

theorem freeOutputs_of_names {first second : String} (houtputs : op.outputs = [first, second])
    (hfirst : work.env.get? first = none) (hsecond : work.env.get? second = none)
    (hdistinct : first ≠ second)
    (hinner : ∀ node ∈ work.graph.nodes, node.name ≠ Lowering.nodeName op second) :
    work.FreeOutputs op := by
  constructor
  · exact ⟨first, by rw [houtputs]; rfl, hfirst⟩
  · rw [houtputs]
    rintro _ ⟨⟩
    refine ⟨hsecond, fun hsame => hdistinct (Option.some.inj hsame), ?_⟩
    exact Graph.findVariable?_eq_none_iff.mpr fun node hnode _ => hinner node hnode

theorem FreeOutputs.mono (hfree : work.FreeOutputs op) (hcomputes : work.Computes next) :
    next.FreeOutputs op := by
  obtain ⟨nodes, happends, hcompute⟩ := hcomputes.appends
  have henv := happends.env_eq
  constructor
  · obtain ⟨name, hname, hunbound⟩ := hfree.first
    exact ⟨name, hname, henv ▸ hunbound⟩
  · intro name hname
    obtain ⟨hunbound, hdistinct, hvariable⟩ := hfree.second name hname
    refine ⟨henv ▸ hunbound, hdistinct, ?_⟩
    rw [Graph.findVariable?_eq_none_iff] at hvariable ⊢
    intro node hnode hisVariable
    rw [← Array.mem_toList_iff, happends.nodes_eq] at hnode
    rcases List.mem_append.mp hnode with hold | hnew
    · exact hvariable node (Array.mem_toList_iff.mp hold) hisVariable
    · exact absurd hisVariable (hcompute node hnew).not_isVariable

end Workspace

namespace Lowering

variable {α β : Type} {op : Operator} {work last : Workspace} {value : Handle}
  {auxiliary : Except LoadError Tensor}

/-- The last step of an operator with a second output. -/
def bindBoth (op : Operator) (auxiliary : Except LoadError Tensor) (value : Handle) :
    Lowering Unit := do
  bindOutput op 0 value
  if 1 < op.outputs.length then bindConstantOutput op 1 (← ofExcept auxiliary)

theorem bound_of_run_bindBoth (hrun : (bindBoth op auxiliary value).run.run work = (.ok (), last)) :
    work.Grows last ∧ (∃ name, op.outputs[0]? = some name ∧ last.env.get? name = some value) ∧
      ∀ name, op.outputs[1]? = some name → ∃ tensor constant, auxiliary = .ok tensor ∧
        last.env.get? name = some constant ∧ last.IsConstant constant tensor := by
  obtain ⟨_, next, hbind, hrest⟩ := run_bind_eq_ok_iff.mp hrun
  obtain ⟨name, hname, hfirst⟩ := appends_of_run_bindOutput hbind
  have hgrows : work.Grows next := (grows_bindOutput op 0 value).of_run_eq hbind
  by_cases hdeclared : 1 < op.outputs.length
  · rw [if_pos hdeclared] at hrest
    obtain ⟨tensor, hauxiliary, hconstant⟩ := run_ofExcept_bind_eq_ok_iff.mp hrest
    have hget : op.outputs[1]? = some op.outputs[1] := List.getElem?_eq_getElem hdeclared
    obtain ⟨node, happends, -, hkind⟩ := appends_of_run_bindConstantOutput hget hconstant
    refine ⟨hgrows.trans ((grows_bindConstantOutput op 1 tensor).of_run_eq hconstant),
      ⟨name, hname, get?_of_appends (hfirst.trans happends) (by simp)⟩, ?_⟩
    intro second hsecond
    obtain rfl := Option.some.inj (hget.symm.trans hsecond)
    refine ⟨tensor, _, hauxiliary, get?_of_appends happends (List.mem_singleton.mpr rfl), node, ?_,
      hkind⟩
    rw [← Array.getElem?_toList, happends.nodes_eq]
    simp [Handle.first]
  · rw [if_neg hdeclared, run_pure] at hrest
    obtain ⟨-, rfl⟩ := Prod.mk.inj hrest
    refine ⟨hgrows, ⟨name, hname, get?_of_appends hfirst (by simp)⟩, ?_⟩
    intro second hsecond
    exact absurd (List.getElem?_eq_some_iff.mp hsecond).1 hdeclared

theorem exists_run_bindConstantOutput {index : Nat} {name : String}
    (hname : op.outputs[index]? = some name) (hfree : work.env.get? name = none)
    (hvariable : work.graph.findVariable? (nodeName op name) = none) (tensor : Tensor) :
    ∃ last, (bindConstantOutput op index tensor).run.run work = (.ok (), last) := by
  have hinfer : Typing.infer (.variable (.constant tensor) tensor.type) work.graph.nodes =
      .ok [tensor.type] := by
    simp [Typing.infer, Typing.variableType]
  obtain ⟨⟨graph, constant⟩, happend⟩ :
      ∃ appended, work.graph.constant (nodeName op name) tensor = .ok appended :=
    ⟨(_, _), Graph.append_eq_ok_iff.mpr
      ⟨_, hinfer, fun _ => Graph.findVariable?_eq_none_iff.mp hvariable, rfl, rfl⟩⟩
  obtain ⟨last, hlast⟩ := @exists_run_bindName { work with graph := graph } name hfree constant
  refine ⟨last, ?_⟩
  rw [bindConstantOutput, hname]
  exact run_bind_eq_ok_iff.mpr ⟨constant, _, run_append_eq_ok_iff.mpr ⟨graph, happend, rfl⟩, hlast⟩

theorem exists_run_bindBoth (hfree : work.FreeOutputs op)
    (hauxiliary : 1 < op.outputs.length → ∃ tensor, auxiliary = .ok tensor) (value : Handle) :
    ∃ last, (bindBoth op auxiliary value).run.run work = (.ok (), last) := by
  obtain ⟨name, hname, hunbound⟩ := hfree.first
  have hfirst : bindOutput op 0 value = bindName name value := by
    rw [bindOutput, hname]
  obtain ⟨next, hbind⟩ := exists_run_bindName hunbound value
  have happends := appends_of_run_bindName hbind
  by_cases hdeclared : 1 < op.outputs.length
  · obtain ⟨tensor, htensor⟩ := hauxiliary hdeclared
    have hget : op.outputs[1]? = some op.outputs[1] := List.getElem?_eq_getElem hdeclared
    obtain ⟨hsecond, hdistinct, hvariable⟩ := hfree.second _ hget
    -- the first output is bound by now, but under another name
    have hstill : next.env.get? op.outputs[1] = none := by
      rw [Environment.get?_eq_none_iff] at hsecond ⊢
      rw [happends.entries_eq, List.map_append, List.mem_append]
      rintro (hold | hnew)
      · exact hsecond hold
      · rw [List.map_singleton, List.mem_singleton] at hnew
        exact hdistinct (hnew ▸ hname)
    rw [← happends.graph_eq] at hvariable
    obtain ⟨last, hlast⟩ := exists_run_bindConstantOutput hget hstill hvariable tensor
    refine ⟨last, run_bind_eq_ok_iff.mpr ⟨(), next, hfirst ▸ hbind, ?_⟩⟩
    rw [if_pos hdeclared]
    exact run_ofExcept_bind_eq_ok_iff.mpr ⟨tensor, htensor, hlast⟩
  · refine ⟨next, run_bind_eq_ok_iff.mpr ⟨(), next, hfirst ▸ hbind, ?_⟩⟩
    rw [if_neg hdeclared, run_pure]

/-! ## Steps before the last one -/

/-- A step that only looks at the workspace. -/
theorem run_bind_of_run {m : Lowering α} {f : α → Lowering β} {a : α}
    (hm : m.run.run work = (.ok a, work)) : (m >>= f).run.run work = (f a).run.run work := by
  rw [run_bind, hm]

theorem run_mapM {f : α → Lowering β} {xs : List α} {ys : List β}
    (hall : List.Forall₂ (fun x y => (f x).run.run work = (.ok y, work)) xs ys) :
    (xs.mapM f).run.run work = (.ok ys, work) := by
  induction hall with
  | nil => rfl
  | cons hfirst _ ih =>
      rw [List.mapM_cons, run_bind_of_run hfirst, run_bind_of_run ih]
      rfl

theorem run_allInputs {values : List Handle} (hne : op.inputs ≠ [])
    (hvalues : List.Forall₂ (fun name value => work.env.get? name = some value) op.inputs values) :
    (allInputs op).run.run work = (.ok values, work) := by
  have hsome : ¬op.inputs.isEmpty := by simpa using hne
  rw [allInputs, if_neg hsome]
  exact run_mapM (hvalues.imp fun name value hvalue => run_resolve hvalue)

/-- The position that an axis stands for, which counts from the last one if it is negative. -/
def axisPlace (axis : Int) (rank : Nat) : Nat := (if axis < 0 then axis + rank else axis).toNat

theorem axisPlace_le {axis : Int} {rank : Nat} (hhigh : axis < (rank + 1 : Nat)) :
    axisPlace axis (rank + 1) ≤ rank := by
  unfold axisPlace
  omega

theorem run_canonicalAxis {arg : String} {axis : Int} {rank : Nat} (hlow : -rank ≤ axis)
    (hhigh : axis < rank) :
    (canonicalAxis op arg axis rank).run.run work = (.ok (axisPlace axis rank), work) := by
  have hbetween : 0 ≤ (if axis < 0 then axis + rank else axis) ∧
      (if axis < 0 then axis + rank else axis) < rank := by
    split <;> omega
  unfold canonicalAxis
  extract_lets resolved
  rw [if_pos hbetween]
  rfl

theorem place_of_run_canonicalAxis {arg : String} {axis : Int} {rank place : Nat}
    (hrun : (canonicalAxis op arg axis rank).run.run work = (.ok place, last)) :
    (-rank ≤ axis ∧ axis < rank) ∧ place = axisPlace axis rank ∧ place < rank ∧ last = work := by
  unfold canonicalAxis at hrun
  extract_lets resolved at hrun
  split at hrun
  · next hbetween =>
      obtain ⟨hplace, rfl⟩ := Prod.mk.inj hrun
      obtain rfl := Except.ok.inj hplace
      exact ⟨by omega, rfl, by omega, rfl⟩
  · cases hrun

/-- The axis is in range. -/
theorem succeedsIff_canonicalAxis {arg : String} {axis : Int} {rank : Nat} :
    SucceedsIff (canonicalAxis op arg axis rank) work (-rank ≤ axis ∧ axis < rank)
      fun place last => place = axisPlace axis rank ∧ place < rank ∧ last = work := by
  constructor
  · rintro ⟨hlow, hhigh⟩
    exact ⟨_, _, run_canonicalAxis hlow hhigh⟩
  · intro place last hrun
    obtain ⟨hrange, hplace, hbelow, rfl⟩ := place_of_run_canonicalAxis hrun
    exact ⟨hrange, .refl, hplace, hbelow, rfl⟩

end Lowering
end NetImport
