import NetImport.Lowering.Basic
import NetImport.Proofs.Execution.Kernels
import NetImport.Proofs.Graph.Growth
import NetImport.Proofs.Model.Refusals
import Mathlib.Order.Defs.Unbundled

/-!
# How lowering changes a workspace

Up to its last step an operator appends nodes that compute, and it does nothing else;
then it binds its outputs, and an auxiliary one to a constant of its own.  This holds of a
lowering that fails as well, up to the step that failed.
-/

namespace NetImport

/-- The kinds of node that operators append: no inputs and no outputs of the graph. -/
def NodeKind.Inner : NodeKind → Prop
  | .variable (.constant _) _ => True
  | .variable .. => False
  | .save .. => False
  | _ => True

theorem NodeKind.Computes.inner {kind : NodeKind} (hkind : kind.Computes) : kind.Inner := by
  cases kind <;> first | exact hkind.elim | trivial

theorem NodeKind.Inner.standsAlone {kind : NodeKind} (hkind : kind.Inner) : kind.StandsAlone := by
  constructor
  · rintro type rfl
    exact hkind
  · rintro input output rfl
    exact hkind

theorem NodeKind.Computes.not_isVariable {kind : NodeKind} (hkind : kind.Computes) :
    ¬ kind.isVariable := by
  cases kind <;> first | exact hkind.elim | nofun

namespace Workspace

/-- A workspace with more nodes that compute, and the names bound as before. -/
inductive Computes (start : Workspace) : Workspace → Prop where
  | refl : start.Computes start
  | append {work : Workspace} {name : String} {kind : NodeKind} {next : Graph} {value : Handle}
      (hcomputes : start.Computes work) (hkind : kind.Computes)
      (happend : work.graph.append name kind = .ok (next, value)) :
      start.Computes { work with graph := next }

/-- A workspace with more inner nodes and more bound names. -/
inductive Grows (start : Workspace) : Workspace → Prop where
  | refl : start.Grows start
  | append {work : Workspace} {name : String} {kind : NodeKind} {next : Graph} {value : Handle}
      (hgrows : start.Grows work) (hkind : kind.Inner)
      (happend : work.graph.append name kind = .ok (next, value)) :
      start.Grows { work with graph := next }
  | bind {work : Workspace} {name : String} {value : Handle} {env : Environment}
      (hgrows : start.Grows work) (hbind : work.env.bind name value = .ok env) :
      start.Grows { work with env := env }

variable {first second third : Workspace}

theorem Computes.trans (hfirst : first.Computes second) (hsecond : second.Computes third) :
    first.Computes third := by
  induction hsecond with
  | refl => exact hfirst
  | append _ hkind happend ih => exact .append ih hkind happend

theorem Computes.grows (hcomputes : first.Computes second) : first.Grows second := by
  induction hcomputes with
  | refl => exact .refl
  | append _ hkind happend ih => exact .append ih hkind.inner happend

theorem Grows.trans (hfirst : first.Grows second) (hsecond : second.Grows third) :
    first.Grows third := by
  induction hsecond with
  | refl => exact hfirst
  | append _ hkind happend ih => exact .append ih hkind happend
  | bind _ hbind ih => exact .bind ih hbind

instance : IsPreorder Workspace Computes where
  refl := fun _ => .refl
  trans := fun _ _ _ => .trans

instance : IsPreorder Workspace Grows where
  refl := fun _ => .refl
  trans := fun _ _ _ => .trans

end Workspace

namespace Lowering

variable {α β : Type} {R S : Workspace → Workspace → Prop}

theorem run_bind (m : Lowering α) (f : α → Lowering β) (work : Workspace) :
    (m >>= f).run.run work =
      match m.run.run work with
      | (.ok a, next) => (f a).run.run next
      | (.error e, next) => (.error e, next) := by
  simp only [ExceptT.run_bind, StateT.run_bind]
  rcases m.run.run work with ⟨e | a, next⟩ <;> rfl

theorem run_pure (a : α) (work : Workspace) :
    (pure a : Lowering α).run.run work = (.ok a, work) :=
  rfl

theorem run_get (work : Workspace) :
    (get : Lowering Workspace).run.run work = (.ok work, work) :=
  rfl

theorem run_append (refuse : GraphError → LoadError)
    (add : Graph → Except GraphError (Graph × Handle)) (work : Workspace) :
    (append refuse add).run.run work =
      match add work.graph with
      | .error error => (.error (refuse error), work)
      | .ok (graph, value) => (.ok value, { work with graph := graph }) := by
  rw [append, run_bind, run_get]
  dsimp only
  rcases add work.graph with error | ⟨graph, value⟩ <;> rfl

theorem run_bindName (name : String) (value : Handle) (work : Workspace) :
    (bindName name value).run.run work =
      match work.env.bind name value with
      | .error error => (.error error, work)
      | .ok env => (.ok (), { work with env := env }) := by
  rw [bindName, run_bind, run_get]
  dsimp only
  rcases work.env.bind name value with error | env <;> rfl

theorem run_bind_eq_ok_iff {m : Lowering α} {f : α → Lowering β} {b : β}
    {work last : Workspace} :
    (m >>= f).run.run work = (.ok b, last) ↔
      ∃ a next, m.run.run work = (.ok a, next) ∧ (f a).run.run next = (.ok b, last) := by
  rw [run_bind]
  rcases m.run.run work with ⟨error | a, next⟩
  · constructor
    · intro hrefused
      cases hrefused
    · rintro ⟨_, _, hfirst, -⟩
      cases hfirst
  · constructor
    · exact fun hrun => ⟨a, next, rfl, hrun⟩
    · rintro ⟨_, _, hfirst, hrun⟩
      cases hfirst
      exact hrun

theorem run_append_eq_ok_iff {refuse : GraphError → LoadError}
    {add : Graph → Except GraphError (Graph × Handle)} {value : Handle}
    {work last : Workspace} :
    (append refuse add).run.run work = (.ok value, last) ↔
      ∃ graph, add work.graph = .ok (graph, value) ∧ last = { work with graph := graph } := by
  rw [run_append]
  rcases add work.graph with error | ⟨graph, appended⟩
  · constructor
    · intro hrefused
      cases hrefused
    · rintro ⟨_, hadd, -⟩
      cases hadd
  · constructor
    · intro hrun
      cases hrun
      exact ⟨graph, rfl, rfl⟩
    · rintro ⟨_, hadd, rfl⟩
      cases hadd
      rfl

theorem run_bindName_eq_ok_iff {name : String} {value : Handle} {result : Unit}
    {work last : Workspace} :
    (bindName name value).run.run work = (.ok result, last) ↔
      ∃ env, work.env.bind name value = .ok env ∧ last = { work with env := env } := by
  rw [run_bindName]
  rcases work.env.bind name value with error | env
  · constructor
    · intro hrefused
      cases hrefused
    · rintro ⟨_, hbind, -⟩
      cases hbind
  · constructor
    · intro hrun
      cases hrun
      exact ⟨env, rfl, rfl⟩
    · rintro ⟨_, hbind, rfl⟩
      cases hbind
      rfl

/-! ## Refusals of sequences -/

theorem run_bind_eq_error_iff {m : Lowering α} {f : α → Lowering β} {error : LoadError}
    {work last : Workspace} :
    (m >>= f).run.run work = (.error error, last) ↔
      m.run.run work = (.error error, last) ∨
        ∃ a next, m.run.run work = (.ok a, next) ∧ (f a).run.run next = (.error error, last) := by
  rw [run_bind]
  rcases m.run.run work with ⟨first | a, next⟩
  · constructor
    · exact fun hrefused => .inl (by cases hrefused; rfl)
    · rintro (hrefused | ⟨_, _, hfirst, -⟩)
      · cases hrefused
        rfl
      · cases hfirst
  · constructor
    · exact fun hrefused => .inr ⟨a, next, rfl, hrefused⟩
    · rintro (hrefused | ⟨_, _, hfirst, hrest⟩)
      · cases hrefused
      · cases hfirst
        exact hrest

/-- The first element that is refused ends a walk. -/
theorem run_forM_eq_error {step : α → Lowering Unit} {xs : List α} {error : LoadError}
    {work last : Workspace} (hrun : (xs.forM step).run.run work = (.error error, last)) :
    ∃ before x after middle, xs = before ++ x :: after ∧
      (before.forM step).run.run work = (.ok (), middle) ∧
      (step x).run.run middle = (.error error, last) := by
  induction xs generalizing work with
  | nil => cases hrun
  | cons x xs ih =>
      rcases run_bind_eq_error_iff.mp hrun with hfirst | ⟨_, next, hfirst, hrest⟩
      · exact ⟨[], x, xs, work, rfl, rfl, hfirst⟩
      · obtain ⟨before, y, after, middle, rfl, hbefore, hy⟩ := ih hrest
        exact ⟨x :: before, y, after, middle, rfl,
          run_bind_eq_ok_iff.mpr ⟨_, next, hfirst, hbefore⟩, hy⟩

theorem run_mapM_eq_error {step : α → Lowering β} {xs : List α} {error : LoadError}
    {work last : Workspace} (hrun : (xs.mapM step).run.run work = (.error error, last)) :
    ∃ before x after ys middle, xs = before ++ x :: after ∧
      (before.mapM step).run.run work = (.ok ys, middle) ∧
      (step x).run.run middle = (.error error, last) := by
  induction xs generalizing work with
  | nil => cases hrun
  | cons x xs ih =>
      rw [List.mapM_cons] at hrun
      rcases run_bind_eq_error_iff.mp hrun with hfirst | ⟨y, next, hfirst, hrest⟩
      · exact ⟨[], x, xs, [], work, rfl, rfl, hfirst⟩
      · rcases run_bind_eq_error_iff.mp hrest with hothers | ⟨_, _, -, hpure⟩
        · obtain ⟨before, z, after, ys, middle, rfl, hbefore, hz⟩ := ih hothers
          refine ⟨x :: before, z, after, y :: ys, middle, rfl, ?_, hz⟩
          rw [List.mapM_cons]
          exact run_bind_eq_ok_iff.mpr ⟨y, next, hfirst,
            run_bind_eq_ok_iff.mpr ⟨ys, middle, hbefore, rfl⟩⟩
        · cases hpure

/-! ## Relations between the workspaces before and after -/

/-- Whatever a lowering comes to, it leads from a workspace to a related one. -/
structure Leads (R : Workspace → Workspace → Prop) (m : Lowering α) : Prop where
  run_related : ∀ work : Workspace, R work (m.run.run work).2

theorem Leads.mono {m : Lowering α} (hm : Leads R m)
    (hweaker : ∀ {work last : Workspace}, R work last → S work last) :
    Leads S m :=
  ⟨fun work => hweaker (hm.run_related work)⟩

theorem Leads.of_run_eq {m : Lowering α} (hm : Leads R m) {work last : Workspace}
    {result : Except LoadError α} (hrun : m.run.run work = (result, last)) :
    R work last := by
  have hrelated := hm.run_related work
  rwa [hrun] at hrelated

section

variable [IsPreorder Workspace R]

theorem leads_pure (a : α) : Leads R (pure a : Lowering α) :=
  ⟨fun work => refl work⟩

theorem leads_throw (error : LoadError) : Leads R (throw error : Lowering α) :=
  ⟨fun work => refl work⟩

theorem leads_get : Leads R (get : Lowering Workspace) :=
  ⟨fun work => refl work⟩

theorem leads_ofExcept (result : Except LoadError α) : Leads R (ofExcept result) := by
  cases result with
  | ok value => exact leads_pure value
  | error error => exact leads_throw error

theorem leads_bind {m : Lowering α} {f : α → Lowering β} (hm : Leads R m)
    (hf : ∀ a, Leads R (f a)) :
    Leads R (m >>= f) := by
  refine ⟨fun work => ?_⟩
  have hfirst := hm.run_related work
  rw [run_bind]
  rcases hrun : m.run.run work with ⟨e | a, next⟩ <;> rw [hrun] at hfirst
  · exact hfirst
  · exact IsTrans.trans _ _ _ hfirst ((hf a).run_related next)

theorem leads_mapM {f : α → Lowering β} (hf : ∀ a, Leads R (f a)) (xs : List α) :
    Leads R (xs.mapM f) := by
  induction xs with
  | nil =>
      rw [List.mapM_nil]
      exact leads_pure _
  | cons x xs ih =>
      rw [List.mapM_cons]
      exact leads_bind (hf x) fun y => leads_bind ih fun ys => leads_pure _

theorem leads_forM {f : α → Lowering Unit} (hf : ∀ a, Leads R (f a)) (xs : List α) :
    Leads R (xs.forM f) := by
  induction xs with
  | nil => exact leads_pure _
  | cons x xs ih => exact leads_bind (hf x) fun _ => ih

end

theorem leads_ite {c : Prop} [Decidable c] {yes no : Lowering α} (hyes : Leads R yes)
    (hno : Leads R no) :
    Leads R (if c then yes else no) := by
  split
  · exact hyes
  · exact hno

/-! ## Steps that compute -/

/-- Whatever a lowering comes to, it has only appended nodes that compute.  If it fails, no
name has been taken. -/
structure Computes (m : Lowering α) : Prop where
  leads : Leads Workspace.Computes m
  refuses : ∀ work : Workspace, RefusesOnly LoadError.NoConflict (m.run.run work).1

theorem computes_pure (a : α) : Computes (pure a : Lowering α) :=
  ⟨leads_pure a, fun _ => refusesOnly_ok a⟩

theorem computes_throw {error : LoadError} (herror : error.NoConflict) :
    Computes (throw error : Lowering α) :=
  ⟨leads_throw error, fun _ => refusesOnly_error herror⟩

theorem computes_get : Computes (get : Lowering Workspace) :=
  ⟨leads_get, fun work => refusesOnly_ok work⟩

theorem computes_ofExcept {result : Except LoadError α} (hread : ReadsProperly result) :
    Computes (ofExcept result) := by
  cases result with
  | ok value => exact computes_pure value
  | error error => exact computes_throw (hread.holds rfl).noConflict

theorem computes_bind {m : Lowering α} {f : α → Lowering β} (hm : Computes m)
    (hf : ∀ a, Computes (f a)) :
    Computes (m >>= f) := by
  refine ⟨leads_bind hm.leads fun a => (hf a).leads, fun work => ?_⟩
  have hfirst := hm.refuses work
  rw [run_bind]
  rcases hrun : m.run.run work with ⟨error | a, next⟩ <;> rw [hrun] at hfirst
  · exact refusesOnly_error (hfirst.holds rfl)
  · exact (hf a).refuses next

theorem computes_ite {c : Prop} [Decidable c] {yes no : Lowering α} (hyes : Computes yes)
    (hno : Computes no) :
    Computes (if c then yes else no) := by
  split
  · exact hyes
  · exact hno

theorem computes_mapM {f : α → Lowering β} (hf : ∀ a, Computes (f a)) (xs : List α) :
    Computes (xs.mapM f) := by
  induction xs with
  | nil =>
      rw [List.mapM_nil]
      exact computes_pure _
  | cons x xs ih =>
      rw [List.mapM_cons]
      exact computes_bind (hf x) fun y => computes_bind ih fun ys => computes_pure _

/-- A builder that appends a node of some kind. -/
def AppendsKind (kinds : NodeKind → Prop) (add : Graph → Except GraphError (Graph × Handle)) :
    Prop :=
  ∃ name kind, (∀ graph, add graph = graph.append name kind) ∧ kinds kind

theorem computes_build (op : Operator) {add : Graph → Except GraphError (Graph × Handle)}
    (hadd : AppendsKind NodeKind.Computes add) :
    Computes (build op add) := by
  obtain ⟨name, kind, hadd, hkind⟩ := hadd
  refine ⟨⟨fun work => ?_⟩, fun work => ?_⟩ <;> rw [build, run_append, hadd] <;>
    cases happend : work.graph.append name kind
  case refine_1.error => exact .refl
  case refine_1.ok => exact .append .refl hkind happend
  case refine_2.error error => exact refusesOnly_error (LoadError.noConflict_ofGraphError _ error)
  case refine_2.ok appended => exact refusesOnly_ok appended.2

theorem computes_resolve (op name : String) : Computes (resolve op name) := by
  refine computes_bind computes_get fun work => ?_
  unfold Environment.resolve
  split
  · exact computes_pure _
  · exact computes_throw trivial

theorem computes_input (op : Operator) (index : Nat) : Computes (input op index) := by
  unfold input
  split
  · exact computes_resolve _ _
  · exact computes_throw trivial

theorem computes_optionalInput (op : Operator) (index : Nat) :
    Computes (optionalInput op index) :=
  computes_ite (computes_bind (computes_input op index) fun _ => computes_pure _) (computes_pure _)

theorem computes_allInputs (op : Operator) : Computes (allInputs op) :=
  computes_ite
    (computes_bind (computes_throw trivial) fun _ => computes_mapM (computes_resolve op.label) _)
    (computes_mapM (computes_resolve op.label) _)

theorem computes_typeOf (op : Operator) (value : Handle) : Computes (typeOf op value) := by
  refine computes_bind computes_get fun work => ?_
  split
  · exact computes_pure _
  · exact computes_throw (LoadError.noConflict_ofGraphError _ _)

theorem computes_dimsOf (op : Operator) (value : Handle) : Computes (dimsOf op value) :=
  computes_bind (computes_typeOf op value) fun _ => computes_pure _

theorem computes_constant? (value : Handle) : Computes (constant? value) :=
  computes_bind computes_get fun _ => computes_pure _

theorem computes_reshapeTo (op : Operator) (value : Handle) (dims : List Nat)
    (suffix : String) :
    Computes (reshapeTo op value dims suffix) :=
  computes_bind (computes_dimsOf op value) fun _ =>
    computes_ite (computes_pure _) (computes_build op ⟨_, _, fun _ => rfl, trivial⟩)

theorem computes_canonicalAxis (op : Operator) (arg : String) (axis : Int) (rank : Nat) :
    Computes (canonicalAxis op arg axis rank) :=
  computes_ite (computes_pure _) (computes_throw trivial)

theorem computes_extentAt (op : Operator) (dims : List Nat) (index : Nat) :
    Computes (extentAt op dims index) := by
  unfold extentAt
  split
  · exact computes_pure _
  · exact computes_throw trivial

theorem computes_difference (op : Operator) (a b : Nat) : Computes (difference op a b) :=
  computes_ite (computes_pure _) (computes_throw trivial)

theorem computes_splitAt (op : Operator) (dims : List Nat) (axis : Nat) :
    Computes (splitAt op dims axis) :=
  computes_ite (computes_pure _) (computes_throw trivial)

theorem computes_matrixDims (op : Operator) (dims : List Nat) (axis : Nat) :
    Computes (matrixDims op dims axis) :=
  computes_bind (computes_splitAt op dims axis) fun _ => computes_pure _

/-! ## Steps that bind -/

theorem grows_append {refuse : GraphError → LoadError}
    {add : Graph → Except GraphError (Graph × Handle)} (hadd : AppendsKind NodeKind.Inner add) :
    Leads Workspace.Grows (append refuse add) := by
  obtain ⟨name, kind, hadd, hkind⟩ := hadd
  refine ⟨fun work => ?_⟩
  rw [run_append, hadd]
  cases happend : work.graph.append name kind with
  | error error => exact .refl
  | ok appended => exact .append .refl hkind happend

theorem grows_bindName (name : String) (value : Handle) :
    Leads Workspace.Grows (bindName name value) := by
  refine ⟨fun work => ?_⟩
  rw [run_bindName]
  cases hbind : work.env.bind name value with
  | error error => exact .refl
  | ok env => exact .bind .refl hbind

theorem grows_bindOutput (op : Operator) (index : Nat) (value : Handle) :
    Leads Workspace.Grows (bindOutput op index value) := by
  unfold bindOutput
  split
  · exact grows_bindName _ _
  · exact leads_throw _

theorem grows_bindConstantOutput (op : Operator) (index : Nat) (tensor : Tensor) :
    Leads Workspace.Grows (bindConstantOutput op index tensor) := by
  unfold bindConstantOutput
  split
  · exact leads_pure _
  · exact leads_bind (grows_append ⟨_, _, fun _ => rfl, trivial⟩) fun _ => grows_bindName _ _

end Lowering
end NetImport
