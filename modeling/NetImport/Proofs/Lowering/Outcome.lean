import NetImport.Proofs.Execution.Extension
import NetImport.Proofs.Lowering.Results

/-!
# When a lowering succeeds, and with what

Up to its last step a lowering succeeds exactly when some condition holds, which its
input decides; what it comes to then satisfies a postcondition.  Sequences of steps
succeed when every step does.
-/

namespace NetImport

namespace Workspace

variable {work next : Workspace}

/-- Values keep their types while nodes are appended and names are bound. -/
theorem Grows.valueType_eq (hgrows : work.Grows next) {value : Handle} {type : TensorType}
    (htype : work.graph.valueType value = .ok type) :
    next.graph.valueType value = .ok type := by
  obtain ⟨nodes, entries, happends⟩ := hgrows.appends
  exact happends.valueType_eq htype

/-- Nodes keep their values while nodes are appended and names are bound. -/
theorem Grows.evaluate_eq (hgrows : work.Grows next) (bindings : Bindings) {position : Nat}
    (hposition : position < work.graph.nodes.size) :
    next.graph.evaluate bindings position = work.graph.evaluate bindings position := by
  induction hgrows with
  | refl => rfl
  | append hbefore hkind happend ih =>
      obtain ⟨nodes, entries, happends⟩ := hbefore.appends
      have hsize := happends.size_eq
      rw [← ih]
      exact Graph.evaluate_append_of_lt hkind.standsAlone happend bindings (by omega)
  | bind _ _ ih => exact ih

theorem Computes.valueType_eq (hcomputes : work.Computes next) {value : Handle}
    {type : TensorType} (htype : work.graph.valueType value = .ok type) :
    next.graph.valueType value = .ok type :=
  hcomputes.grows.valueType_eq htype

theorem Computes.evaluate_eq (hcomputes : work.Computes next) (bindings : Bindings)
    {position : Nat} (hposition : position < work.graph.nodes.size) :
    next.graph.evaluate bindings position = work.graph.evaluate bindings position :=
  hcomputes.grows.evaluate_eq bindings hposition

end Workspace

namespace Lowering

variable {α β : Type} {m : Lowering α} {work : Workspace} {fits fits' : Prop}

/-- A lowering succeeds on a workspace exactly when a condition holds.  It then has only
appended nodes that compute, and the result and the last workspace satisfy `post`. -/
structure SucceedsIff (m : Lowering α) (work : Workspace) (fits : Prop)
    (post : α → Workspace → Prop) : Prop where
  succeeds : fits → ∃ a last, m.run.run work = (.ok a, last)
  ensures : ∀ {a : α} {last : Workspace}, m.run.run work = (.ok a, last) →
    fits ∧ work.Computes last ∧ post a last

/-- A lowering succeeds on a workspace. -/
abbrev Succeeds (m : Lowering α) (work : Workspace) (post : α → Workspace → Prop) : Prop :=
  SucceedsIff m work True post

theorem SucceedsIff.mono {post post' : α → Workspace → Prop}
    (hm : SucceedsIff m work fits post)
    (hpost : ∀ {a last}, fits → work.Computes last → post a last → post' a last) :
    SucceedsIff m work fits post' := by
  refine ⟨hm.succeeds, fun hrun => ?_⟩
  obtain ⟨hfits, hcomputes, hresult⟩ := hm.ensures hrun
  exact ⟨hfits, hcomputes, hpost hfits hcomputes hresult⟩

theorem SucceedsIff.of_iff {post : α → Workspace → Prop} (hm : SucceedsIff m work fits post)
    (hfits : fits ↔ fits') : SucceedsIff m work fits' post :=
  propext hfits ▸ hm

theorem succeeds_pure {post : α → Workspace → Prop} {a : α} (ha : post a work) :
    Succeeds (pure a) work post := by
  refine ⟨fun _ => ⟨a, work, rfl⟩, fun hrun => ?_⟩
  obtain ⟨hvalue, rfl⟩ := Prod.mk.inj hrun
  obtain rfl := Except.ok.inj hvalue
  exact ⟨trivial, .refl, ha⟩

theorem succeedsIff_throw {post : α → Workspace → Prop} (error : LoadError) :
    SucceedsIff (throw error) work False post :=
  ⟨False.elim, fun hrun => by cases hrun⟩

theorem succeedsIff_throw_bind {f : α → Lowering β} {post : β → Workspace → Prop}
    (error : LoadError) :
    SucceedsIff (throw error >>= f) work False post :=
  ⟨False.elim, fun hrun => by cases hrun⟩

theorem succeedsIff_bind {f : α → Lowering β} {mid : α → Workspace → Prop}
    {post : β → Workspace → Prop} (hm : SucceedsIff m work fits mid)
    (hf : ∀ a next, work.Computes next → mid a next → SucceedsIff (f a) next fits' post) :
    SucceedsIff (m >>= f) work (fits ∧ fits') post := by
  constructor
  · rintro ⟨hfits, hfits'⟩
    obtain ⟨a, next, hfirst⟩ := hm.succeeds hfits
    obtain ⟨-, hcomputes, hmid⟩ := hm.ensures hfirst
    obtain ⟨b, last, hrest⟩ := (hf a next hcomputes hmid).succeeds hfits'
    exact ⟨b, last, run_bind_eq_ok_iff.mpr ⟨a, next, hfirst, hrest⟩⟩
  · intro b last hrun
    obtain ⟨a, next, hfirst, hrest⟩ := run_bind_eq_ok_iff.mp hrun
    obtain ⟨hfits, hcomputes, hmid⟩ := hm.ensures hfirst
    obtain ⟨hfits', hcomputes', hpost⟩ := (hf a next hcomputes hmid).ensures hrest
    exact ⟨⟨hfits, hfits'⟩, hcomputes.trans hcomputes', hpost⟩

/-- A first step that always succeeds. -/
theorem succeedsIff_bind_of_succeeds {f : α → Lowering β} {mid : α → Workspace → Prop}
    {post : β → Workspace → Prop} (hm : Succeeds m work mid)
    (hf : ∀ a next, work.Computes next → mid a next → SucceedsIff (f a) next fits post) :
    SucceedsIff (m >>= f) work fits post := by
  have hboth := succeedsIff_bind hm hf
  rwa [true_and] at hboth

/-- A first step that only looks at the workspace. -/
theorem succeedsIff_bind_of_run {f : α → Lowering β} {post : β → Workspace → Prop} {a : α}
    (hm : m.run.run work = (.ok a, work)) (hf : SucceedsIff (f a) work fits post) :
    SucceedsIff (m >>= f) work fits post := by
  have hlook : Succeeds m work fun found next => found = a ∧ next = work := by
    refine ⟨fun _ => ⟨a, work, hm⟩, fun hrun => ?_⟩
    obtain ⟨hvalue, rfl⟩ := Prod.mk.inj (hm.symm.trans hrun)
    obtain rfl := Except.ok.inj hvalue
    exact ⟨trivial, .refl, rfl, rfl⟩
  refine succeedsIff_bind_of_succeeds hlook ?_
  rintro _ _ - ⟨rfl, rfl⟩
  exact hf

/-! ## Steps that only look -/

theorem run_typeOf {op : Operator} {value : Handle} {type : TensorType}
    (htype : work.graph.valueType value = .ok type) :
    (typeOf op value).run.run work = (.ok type, work) := by
  rw [typeOf, run_bind, run_get]
  dsimp only
  rw [htype]
  rfl

theorem run_dimsOf {op : Operator} {value : Handle} {type : TensorType}
    (htype : work.graph.valueType value = .ok type) :
    (dimsOf op value).run.run work = (.ok type.dims, work) := by
  rw [dimsOf, run_bind, run_typeOf htype]
  rfl

theorem run_extentAt {op : Operator} {dims : List Nat} {index extent : Nat}
    (hextent : dims[index]? = some extent) :
    (extentAt op dims index).run.run work = (.ok extent, work) := by
  rw [extentAt, hextent]
  rfl

theorem run_difference {op : Operator} {a b : Nat} (hle : b ≤ a) :
    (difference op a b).run.run work = (.ok (a - b), work) := by
  rw [difference, if_pos hle]
  rfl

theorem run_splitAt {op : Operator} {dims : List Nat} {axis : Nat} (haxis : axis ≤ dims.length) :
    (splitAt op dims axis).run.run work = (.ok (dims.take axis, dims.drop axis), work) := by
  rw [splitAt, if_pos haxis]
  rfl

/-! ## Lists and nodes -/

/-- The elements of a list are lowered in order, from workspaces that only grow. -/
theorem succeedsIff_mapM {f : α → Lowering β} {good : α → β → Workspace → Prop}
    (hgrow : ∀ {a b work next}, Workspace.Computes work next → good a b work → good a b next)
    {xs : List α}
    (hf : ∀ a ∈ xs, ∀ next, work.Computes next → SucceedsIff (f a) next fits (good a)) :
    SucceedsIff (xs.mapM f) work (xs = [] ∨ fits) fun ys last =>
      List.Forall₂ (fun a b => good a b last) xs ys := by
  induction xs generalizing work with
  | nil =>
      rw [List.mapM_nil]
      exact (succeeds_pure List.Forall₂.nil).of_iff (by simp)
  | cons x xs ih =>
      rw [List.forall_mem_cons] at hf
      rw [List.mapM_cons]
      have hrest (y : β) (next : Workspace) (hnext : work.Computes next) (hy : good x y next) :
          SucceedsIff (xs.mapM f >>= fun ys => pure (y :: ys)) next (xs = [] ∨ fits)
            fun ys last => List.Forall₂ (fun a b => good a b last) (x :: xs) ys := by
        have htail := ih fun a ha other hother => hf.2 a ha other (hnext.trans hother)
        refine (succeedsIff_bind htail fun ys last hlast hys => ?_).of_iff (and_iff_left trivial)
        exact succeeds_pure (.cons (hgrow hlast hy) hys)
      refine (succeedsIff_bind (hf.1 work .refl) hrest).of_iff ?_
      constructor
      · exact fun hboth => .inr hboth.1
      · rintro (hnil | hfits)
        · cases hnil
        · exact ⟨hfits, .inr hfits⟩

/-- Appending a node that computes succeeds when the node types. -/
theorem succeedsIff_build {op : Operator} {add : Graph → Except GraphError (Graph × Handle)}
    {name : String} {kind : NodeKind} {type : TensorType}
    (hadd : ∀ graph, add graph = graph.append name kind) (hkind : kind.Computes)
    (hinfer : ∀ types, Typing.infer kind work.graph.nodes = .ok types ↔ fits ∧ types = [type]) :
    SucceedsIff (build op add) work fits fun value last =>
      last.graph.valueType value = .ok type ∧
        ∀ bindings, last.graph.evaluate bindings value.node =
          Engine.applyKernel kind (fun operand => work.graph.evaluate bindings operand.node)
            (Tensor.zeros type.dtype type.shape) := by
  constructor
  · intro hfits
    have htypes := (hinfer _).mpr ⟨hfits, rfl⟩
    have hfree : kind.isVariable → ∀ node ∈ work.graph.nodes, node.isVariable → node.name ≠ name :=
      fun hvariable => absurd hvariable hkind.not_isVariable
    have happend : ∃ appended, work.graph.append name kind = .ok appended :=
      ⟨(_, _), Graph.append_eq_ok_iff.mpr ⟨_, htypes, hfree, rfl, rfl⟩⟩
    obtain ⟨appended, happend⟩ := happend
    refine ⟨appended.2, { work with graph := appended.1 }, ?_⟩
    exact run_append_eq_ok_iff.mpr ⟨appended.1, (hadd _).trans happend, rfl⟩
  · intro value last hrun
    obtain ⟨graph, happend, rfl⟩ := run_append_eq_ok_iff.mp hrun
    rw [hadd] at happend
    obtain ⟨results, htypes, -, hnext, hvalue⟩ := Graph.append_eq_ok_iff.mp happend
    obtain ⟨hfits, rfl⟩ := (hinfer _).mp htypes
    refine ⟨hfits, .append .refl hkind happend, ?_, Graph.evaluate_append hkind happend htypes⟩
    refine Typing.operand_eq_ok_iff.mpr ⟨⟨name, kind, [type]⟩, ?_, ?_⟩
    · simp [hnext, hvalue, Handle.first]
    · simp [hvalue, Handle.first]

end Lowering
end NetImport
