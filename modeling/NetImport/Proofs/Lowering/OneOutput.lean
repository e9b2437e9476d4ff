import NetImport.Lowering.Dispatch
import NetImport.Proofs.Lowering.Outcome
import NetImport.Proofs.Model.Environment

/-!
# Operators that bind one output

Most lowerings end by binding their first output.  Such a lowering succeeds exactly when the
steps before do and the name of the output is free, and the output then stands for the value
that the steps have come to.
-/

namespace NetImport

/-- An operator has a value of some type at one of its inputs. -/
structure Workspace.HasInput (work : Workspace) (op : Operator) (index : Nat) (value : Handle)
    (type : TensorType) : Prop where
  bound : ∃ name, op.inputs[index]? = some name ∧ work.env.get? name = some value
  typed : work.graph.valueType value = .ok type

/-- The tensor that a value stands for under some bindings. -/
structure Workspace.HasValue (work : Workspace) (bindings : Bindings) (value : Handle)
    (type : TensorType) (tensor : Tensor) : Prop where
  evaluates : work.graph.evaluate bindings value.node = .ok tensor
  type_eq : tensor.type = type

theorem Workspace.HasValue.mono {work next : Workspace} {bindings : Bindings} {value : Handle}
    {type : TensorType} {tensor : Tensor} (hvalue : work.HasValue bindings value type tensor)
    (hcomputes : work.Computes next) : next.HasValue bindings value type tensor := by
  have hposition : value.node < work.graph.nodes.size := by
    by_contra hbeyond
    have hnone := Array.getElem?_eq_none (Nat.le_of_not_lt hbeyond)
    have hevaluates := hvalue.evaluates
    rw [Graph.evaluate, hnone] at hevaluates
    cases hevaluates
  exact ⟨(hcomputes.evaluate_eq bindings hposition).trans hvalue.evaluates, hvalue.type_eq⟩

theorem Workspace.hasValue_with_env {work : Workspace} {bindings : Bindings} {value : Handle}
    {type : TensorType} {tensor : Tensor} (env : Environment) :
    HasValue { work with env := env } bindings value type tensor ↔
      work.HasValue bindings value type tensor :=
  ⟨fun hvalue => ⟨hvalue.evaluates, hvalue.type_eq⟩,
    fun hvalue => ⟨hvalue.evaluates, hvalue.type_eq⟩⟩

/-- An operator has a value at one of its inputs, or no such input. -/
def Workspace.OptionalInput (work : Workspace) (op : Operator) (index : Nat) :
    Option Handle → Prop
  | none => op.inputs.length ≤ index
  | some value => ∃ name, op.inputs[index]? = some name ∧ work.env.get? name = some value

/-- The first output of an operator has a name, which is not bound yet. -/
def Workspace.FreeOutput (work : Workspace) (op : Operator) : Prop :=
  ∃ name, op.outputs[0]? = some name ∧ work.env.get? name = none

instance : Inhabited Bindings := ⟨.empty⟩

instance : Inhabited Tensor := ⟨Tensor.zeros .f32 ⟨[]⟩⟩

namespace Lowering

variable {α : Type} {op : Operator} {m : Lowering α} {work last : Workspace}
  {fits fits' : Prop}

theorem operator_eq {kind : OperatorKind} (hkind : OperatorKind.parse? op.kind = some kind) :
    operator op = ofKind kind op := by
  rw [operator, hkind]

theorem run_ofExcept {result : Except LoadError α} {a : α} (hresult : result = .ok a) :
    (ofExcept result).run.run work = (.ok a, work) :=
  run_ofExcept_eq_ok_iff.mpr ⟨hresult, rfl⟩

theorem run_ofExcept_bind_eq_ok_iff {β : Type} {result : Except LoadError α}
    {f : α → Lowering β} {b : β} :
    (ofExcept result >>= f).run.run work = (.ok b, last) ↔
      ∃ a, result = .ok a ∧ (f a).run.run work = (.ok b, last) := by
  rw [run_bind_eq_ok_iff]
  constructor
  · rintro ⟨a, next, hread, hrest⟩
    obtain ⟨hresult, rfl⟩ := run_ofExcept_eq_ok_iff.mp hread
    exact ⟨a, hresult, hrest⟩
  · rintro ⟨a, hresult, hrest⟩
    exact ⟨a, work, run_ofExcept hresult, hrest⟩

theorem run_resolve {name label : String} {value : Handle}
    (hvalue : work.env.get? name = some value) :
    (resolve label name).run.run work = (.ok value, work) := by
  rw [resolve, run_bind, run_get]
  dsimp only
  rw [Environment.resolve, hvalue]
  rfl

theorem run_input_of_bound {index : Nat} {name : String} {value : Handle}
    (hname : op.inputs[index]? = some name) (hvalue : work.env.get? name = some value) :
    (input op index).run.run work = (.ok value, work) := by
  rw [input, hname]
  exact run_resolve hvalue

theorem run_input {index : Nat} {value : Handle} {type : TensorType}
    (hinput : work.HasInput op index value type) :
    (input op index).run.run work = (.ok value, work) := by
  obtain ⟨name, hname, hvalue⟩ := hinput.bound
  exact run_input_of_bound hname hvalue

theorem bound_of_run_input {index : Nat} {value : Handle}
    (hrun : (input op index).run.run work = (.ok value, last)) :
    (∃ name, op.inputs[index]? = some name ∧ work.env.get? name = some value) ∧ last = work := by
  unfold input at hrun
  split at hrun
  · next name hname =>
      rw [resolve, run_bind, run_get] at hrun
      obtain ⟨hresolved, rfl⟩ := run_ofExcept_eq_ok_iff.mp hrun
      unfold Environment.resolve at hresolved
      split at hresolved
      · next found hfound =>
          obtain rfl := Except.ok.inj hresolved
          exact ⟨⟨name, hname, hfound⟩, rfl⟩
      · cases hresolved
  · cases hrun

theorem run_optionalInput {index : Nat} {value? : Option Handle}
    (hinput : work.OptionalInput op index value?) :
    (optionalInput op index).run.run work = (.ok value?, work) := by
  unfold optionalInput
  cases value? with
  | none =>
      rw [if_neg (Nat.not_lt_of_le hinput)]
      rfl
  | some value =>
      obtain ⟨name, hname, hvalue⟩ := hinput
      rw [if_pos (List.getElem?_eq_some_iff.mp hname).1, run_bind, input, hname]
      dsimp only
      rw [run_resolve hvalue]
      rfl

theorem optionalInput_of_run {index : Nat} {value? : Option Handle}
    (hrun : (optionalInput op index).run.run work = (.ok value?, last)) :
    work.OptionalInput op index value? ∧ last = work := by
  unfold optionalInput at hrun
  split at hrun
  · obtain ⟨value, next, hvalue, hrest⟩ := run_bind_eq_ok_iff.mp hrun
    obtain ⟨hbound, rfl⟩ := bound_of_run_input hvalue
    cases hrest
    exact ⟨hbound, rfl⟩
  · next hindex =>
      cases hrun
      exact ⟨Nat.le_of_not_lt hindex, rfl⟩

theorem get?_of_appends {value : Handle} {nodes : List Node} {bindings : List (String × Handle)} {name : String}
    (happends : work.Appends last nodes bindings) (hmem : (name, value) ∈ bindings) :
    last.env.get? name = some value := by
  rw [Environment.get?_eq_some_iff, happends.entries_eq]
  exact List.mem_append_right _ hmem

theorem exists_run_bindName {name : String} (hfree : work.env.get? name = none) (value : Handle) :
    ∃ last, (bindName name value).run.run work = (.ok (), last) := by
  obtain ⟨env, henv⟩ := (@Environment.bind_eq_ok_iff_free _ _ value).mpr hfree
  exact ⟨{ work with env := env }, run_bindName_eq_ok_iff.mpr ⟨env, henv, rfl⟩⟩

/-- A lowering succeeds exactly when a condition holds and its output is free, and has then
bound the output to a value that satisfies `post` in the last workspace. -/
structure BindsIff (op : Operator) (m : Lowering Unit) (work : Workspace) (fits : Prop)
    (post : Handle → Workspace → Prop) : Prop where
  succeeds : fits → work.FreeOutput op → ∃ last, m.run.run work = (.ok (), last)
  ensures : ∀ {last : Workspace}, m.run.run work = (.ok (), last) →
    fits ∧ ∃ name value, op.outputs[0]? = some name ∧ last.env.get? name = some value ∧
      post value last

theorem bindsIff_bindOutput {value : Handle} {post : Handle → Workspace → Prop}
    (hpost : ∀ env, post value { work with env := env }) :
    BindsIff op (bindOutput op 0 value) work True post := by
  constructor
  · rintro - ⟨name, hname, hfree⟩
    rw [bindOutput, hname]
    exact exists_run_bindName hfree value
  · intro last hrun
    obtain ⟨name, hname, happends⟩ := appends_of_run_bindOutput hrun
    have hvalue : last.env.get? name = some value :=
      get?_of_appends happends (List.mem_singleton.mpr rfl)
    have hlast : last = { work with env := last.env } := by
      rw [← happends.graph_eq]
    refine ⟨trivial, name, value, hname, hvalue, ?_⟩
    rw [hlast]
    exact hpost _

theorem bindsIff_bind {f : α → Lowering Unit} {mid : α → Workspace → Prop}
    {post : Handle → Workspace → Prop} (hm : SucceedsIff m work fits mid)
    (hf : ∀ a next, work.Computes next → mid a next → BindsIff op (f a) next fits' post) :
    BindsIff op (m >>= f) work (fits ∧ fits') post := by
  constructor
  · rintro ⟨hfits, hfits'⟩ ⟨name, hname, hfree⟩
    obtain ⟨a, next, hfirst⟩ := hm.succeeds hfits
    obtain ⟨-, hcomputes, hmid⟩ := hm.ensures hfirst
    obtain ⟨nodes, happends, -⟩ := hcomputes.appends
    rw [← happends.env_eq] at hfree
    obtain ⟨last, hrest⟩ := (hf a next hcomputes hmid).succeeds hfits' ⟨name, hname, hfree⟩
    exact ⟨last, run_bind_eq_ok_iff.mpr ⟨a, next, hfirst, hrest⟩⟩
  · intro last hrun
    obtain ⟨a, next, hfirst, hrest⟩ := run_bind_eq_ok_iff.mp hrun
    obtain ⟨hfits, hcomputes, hmid⟩ := hm.ensures hfirst
    obtain ⟨hfits', hbinds⟩ := (hf a next hcomputes hmid).ensures hrest
    exact ⟨⟨hfits, hfits'⟩, hbinds⟩

theorem bindsIff_bind_of_succeeds {f : α → Lowering Unit} {mid : α → Workspace → Prop}
    {post : Handle → Workspace → Prop} (hm : Succeeds m work mid)
    (hf : ∀ a next, work.Computes next → mid a next → BindsIff op (f a) next fits post) :
    BindsIff op (m >>= f) work fits post := by
  have hboth := bindsIff_bind hm hf
  rwa [true_and] at hboth

/-- A first step that only looks at the workspace. -/
theorem bindsIff_bind_of_run {f : α → Lowering Unit} {post : Handle → Workspace → Prop} {a : α}
    (hm : m.run.run work = (.ok a, work)) (hf : BindsIff op (f a) work fits post) :
    BindsIff op (m >>= f) work fits post := by
  have hrun : (m >>= f).run.run work = (f a).run.run work := by
    rw [run_bind, hm]
  constructor
  · intro hfits hfree
    rw [hrun]
    exact hf.succeeds hfits hfree
  · intro last hlast
    rw [hrun] at hlast
    exact hf.ensures hlast

/-- A last step, whose value is bound to the output. -/
theorem bindsIff_bind_bindOutput {m : Lowering Handle} {post : Handle → Workspace → Prop}
    (hm : SucceedsIff m work fits post)
    (hpost : ∀ {value next} env, post value next → post value { next with env := env }) :
    BindsIff op (m >>= bindOutput op 0) work fits post := by
  have hboth := bindsIff_bind hm fun value next _ hvalue =>
    @bindsIff_bindOutput op next value post fun env => hpost env hvalue
  rwa [and_true] at hboth

theorem BindsIff.of_iff {m : Lowering Unit} {post : Handle → Workspace → Prop}
    (hm : BindsIff op m work fits post) (hfits : fits ↔ fits') : BindsIff op m work fits' post :=
  propext hfits ▸ hm

theorem BindsIff.mono {m : Lowering Unit} {post post' : Handle → Workspace → Prop}
    (hm : BindsIff op m work fits post)
    (hpost : ∀ {value last}, fits → post value last → post' value last) :
    BindsIff op m work fits post' := by
  refine ⟨hm.succeeds, fun hrun => ?_⟩
  obtain ⟨hfits, name, value, hname, hvalue, hresult⟩ := hm.ensures hrun
  exact ⟨hfits, name, value, hname, hvalue, hpost hfits hresult⟩

/-- A lowering that fits binds a free output. -/
theorem BindsIff.exists_bound {m : Lowering Unit} {post : Handle → Workspace → Prop}
    {name : String} (hm : BindsIff op m work fits post) (hfits : fits)
    (hname : op.outputs[0]? = some name) (hfree : work.env.get? name = none) :
    ∃ last value, m.run.run work = (.ok (), last) ∧ last.env.get? name = some value ∧
      post value last := by
  obtain ⟨last, hrun⟩ := hm.succeeds hfits ⟨name, hname, hfree⟩
  obtain ⟨-, name', value, hname', hvalue, hpost⟩ := hm.ensures hrun
  obtain rfl := Option.some.inj (hname.symm.trans hname')
  exact ⟨last, value, hrun, hvalue, hpost⟩

/-- What is known of the output for each of many choices is known of it for all of them. -/
theorem BindsIff.forall {ι : Type} [Nonempty ι] {m : Lowering Unit}
    {post : ι → Handle → Workspace → Prop} (hm : ∀ i, BindsIff op m work fits (post i)) :
    BindsIff op m work fits fun value last => ∀ i, post i value last := by
  have hone := hm (Classical.arbitrary ι)
  refine ⟨hone.succeeds, fun {last} hrun => ?_⟩
  obtain ⟨hfits, name, value, hname, hvalue, -⟩ := hone.ensures hrun
  refine ⟨hfits, name, value, hname, hvalue, fun i => ?_⟩
  obtain ⟨-, name', value', hname', hvalue', hpost⟩ := (hm i).ensures hrun
  obtain rfl := Option.some.inj (hname.symm.trans hname')
  obtain rfl := Option.some.inj (hvalue.symm.trans hvalue')
  exact hpost

end Lowering
end NetImport
