import NetImport.Model.Load
import NetImport.Proofs.Lowering.Handlers

/-!
# Imports that fail leave the graph alone

Every step of an import changes its graph by successful calls of builders only, also when
the step fails later.  So the nodes of before still begin the graph when an import ends.
One that succeeds leaves them there, and one that fails goes back to them.
-/

namespace NetImport
namespace Workspace

variable {start last : Workspace}

/-- The graph of a workspace after some successful calls of builders. -/
def Builds (start last : Workspace) : Prop :=
  start.graph.Reaches last.graph

instance : IsPreorder Workspace Builds where
  refl := fun _ => .refl
  trans := fun _ _ _ => .trans

theorem Grows.builds (hgrows : start.Grows last) : start.Builds last := by
  induction hgrows with
  | refl => exact .refl
  | append _ hkind happend ih => exact ih.tail (.alone hkind.standsAlone happend)
  | bind _ _ ih => exact ih

end Workspace

namespace Lowering

/-! ## The steps of an import -/

theorem builds_append {refuse : GraphError → LoadError}
    {add : Graph → Except GraphError (Graph × Handle)}
    (hadd : AppendsKind NodeKind.StandsAlone add) :
    Leads Workspace.Builds (append refuse add) := by
  obtain ⟨name, kind, hadd, hkind⟩ := hadd
  refine ⟨fun work => ?_⟩
  rw [run_append, hadd]
  cases happend : work.graph.append name kind with
  | error error => exact .refl
  | ok appended => exact .single (.alone hkind happend)

theorem builds_addVariable {name : String} {add : Graph → Except GraphError (Graph × Handle)}
    (hadd : AppendsKind NodeKind.StandsAlone add) :
    Leads Workspace.Builds (addVariable name add) :=
  leads_bind (builds_append hadd) fun value =>
    (grows_bindName name value).mono Workspace.Grows.builds

theorem builds_addInput (weights : WeightTable) (entry : String × TensorType) :
    Leads Workspace.Builds (addInput weights entry) := by
  have hadd : Leads Workspace.Builds
      (addVariable entry.1 fun graph => graph.placeholder entry.1 entry.2) :=
    builds_addVariable ⟨_, _, fun _ => rfl, nofun, nofun⟩
  exact leads_ite (leads_bind (leads_throw _) fun _ => hadd) hadd

theorem builds_addWeight (entry : String × Tensor) :
    Leads Workspace.Builds (addWeight entry) :=
  builds_addVariable ⟨_, _, fun _ => rfl, nofun, nofun⟩

theorem builds_operator (op : Operator) : Leads Workspace.Builds (operator op) :=
  (grows_operator op).mono Workspace.Grows.builds

theorem builds_addOutput (name : String) : Leads Workspace.Builds (addOutput name) := by
  have hresolve : Leads Workspace.Builds (resolve importLabel name) :=
    (computes_resolve importLabel name).leads.mono fun hcomputes => hcomputes.grows.builds
  refine leads_bind hresolve fun value => ⟨fun work => ?_⟩
  rw [run_bind, run_get]
  dsimp only
  rcases work.graph.saveInPlace_cases name value with
    ⟨error, hrefused⟩ | ⟨type, withVariable, output, next, last, htype, hvariable, hsave, heq⟩
  · rw [hrefused]
    exact .refl
  · rw [heq]
    exact .single (.saved htype hvariable hsave)

theorem builds_model (predict init : NetDefinition) (inputs : List (String × TensorType)) :
    Leads Workspace.Builds (model predict init inputs) := by
  refine leads_bind (leads_ofExcept _) fun weights => ?_
  refine leads_bind (leads_forM (builds_addInput weights) _) fun _ => ?_
  refine leads_bind (leads_forM builds_addWeight _) fun _ => ?_
  refine leads_bind (leads_forM builds_operator _) fun _ => ?_
  exact leads_bind (leads_mapM builds_addOutput _) fun _ => leads_pure _

end Lowering

/-- Whatever makes an import fail, it leaves the graph as it was.  One that succeeds has
appended nodes to the graph and left the others as they were. -/
theorem load_is_atomic (predict init : NetDefinition) (names : List String)
    (types : List TensorType) (graph : Graph) :
    match LoadedModel.load predict init names types graph with
    | (.error _, next) => next = graph
    | (.ok _, next) => next.name = graph.name ∧ graph.nodes.toList <+: next.nodes.toList := by
  unfold LoadedModel.load
  by_cases hlength : names.length ≠ types.length
  · rw [if_pos hlength]
  · rw [if_neg hlength]
    have hbuilds := (Lowering.builds_model predict init (names.zip types)).run_related
      ⟨graph, .empty⟩
    dsimp only
    rcases hrun : (Lowering.model predict init (names.zip types)).run.run ⟨graph, .empty⟩ with
      ⟨error | loaded, work⟩ <;> rw [hrun] at hbuilds
    · exact hbuilds.rollback_eq
    · exact hbuilds.prefix_toList

end NetImport
