import NetImport.Proofs.Graph.Relocation
import NetImport.Proofs.Lowering.Growth
import NetImport.Proofs.Model.Environment
import NetImport.Proofs.Model.Reading

/-!
# Lowerings in step

Two lowerings go in step when the second one does, behind the nodes of another graph, what
the first one does without them: it appends the same nodes and binds the same names, to values
that are counted from further on, and it fails when the first one fails.  Whatever is looked up
is then the same for both, as long as only values are looked up that have been found before.
-/

namespace NetImport

namespace Graph

variable {graph next : Graph} {name : String} {kind : NodeKind} {value : Handle}

/-- A value that a graph has. -/
def Resolves (graph : Graph) (value : Handle) : Prop :=
  ∃ type, graph.valueType value = .ok type

theorem Resolves.append {added : Handle} (happend : graph.append name kind = .ok (next, added))
    (hvalue : graph.Resolves value) :
    next.Resolves value := by
  obtain ⟨type, htype⟩ := hvalue
  obtain ⟨node, hnode, hresult⟩ := Typing.operand_eq_ok_iff.mp htype
  have hbound := Typing.lt_size_of_operand htype
  have hkept : next.nodes[value.node]? = some node :=
    (getElem?_append_of_lt happend hbound).trans hnode
  exact ⟨type, Typing.operand_eq_ok_iff.mpr ⟨node, hkept, hresult⟩⟩

/-- What is appended alone has a value. -/
theorem resolves_of_append (hkind : kind.StandsAlone)
    (happend : graph.append name kind = .ok (next, value)) :
    next.Resolves value := by
  obtain ⟨results, hinfer, -, rfl, rfl⟩ := append_eq_ok_iff.mp happend
  rcases Typing.results_of_infer hinfer with ⟨⟨input, output, hsave⟩, -⟩ | ⟨-, type, rfl⟩
  · exact absurd hsave (hkind.2 input output)
  · refine ⟨type, Typing.operand_eq_ok_iff.mpr ⟨⟨name, kind, [type]⟩, ?_, rfl⟩⟩
    exact Array.getElem?_push_size

end Graph

/-- The values in what a step results in, and what becomes of it further on. -/
structure Cargo (α : Type) where
  move : Nat → α → α
  values : α → List Handle

namespace Cargo

variable {α : Type}

/-- No values. -/
def data : Cargo α := ⟨fun _ => id, fun _ => []⟩

def value : Cargo Handle := ⟨fun count value => value.shift count, fun value => [value]⟩

def optional : Cargo (Option Handle) :=
  ⟨fun count => Option.map (·.shift count), Option.toList⟩

def list (cargo : Cargo α) : Cargo (List α) :=
  ⟨fun count => List.map (cargo.move count), List.flatMap cargo.values⟩

theorem list_data : (data : Cargo α).list = data := by
  have hvalues : List.flatMap (fun _ : α => ([] : List Handle)) = fun _ => [] := by
    funext xs
    simp
  simp only [list, data, List.map_id_fun, hvalues]

end Cargo

/-- The nodes that a second lowering finds in its graph, and the refusals that it may have in
place of those of the first. -/
structure Mirroring where
  before : Graph
  alike : LoadError → LoadError → Prop
  alike_refl : ∀ error, alike error error

namespace Mirroring

variable {α β : Type} {mirror : Mirroring} {op op' : Operator} {live : List Handle}

instance (mirror : Mirroring) : Std.Refl mirror.alike := ⟨mirror.alike_refl⟩

def offset (mirror : Mirroring) : Nat := mirror.before.nodes.size

/-- A workspace, and the same workspace behind the other nodes. -/
structure Related (mirror : Mirroring) (work work' : Workspace) : Prop where
  graph_eq : work'.graph = mirror.before.followedBy work.graph
  entries_eq : work'.env.entries =
    work.env.entries.map fun entry => (entry.1, entry.2.shift mirror.offset)
  resolves : ∀ entry ∈ work.env.entries, work.graph.Resolves entry.2

theorem Related.valueType_eq {work work' : Workspace} (hwork : mirror.Related work work')
    {value : Handle} (hvalue : work.graph.Resolves value) :
    work'.graph.valueType (value.shift mirror.offset) = work.graph.valueType value := by
  obtain ⟨type, htype⟩ := hvalue
  rw [hwork.graph_eq, htype]
  exact Graph.valueType_followedBy htype

theorem Related.get?_eq {work work' : Workspace} (hwork : mirror.Related work work')
    (name : String) :
    work'.env.get? name = (work.env.get? name).map (·.shift mirror.offset) := by
  cases hget : work.env.get? name with
  | none =>
      have hfree : name ∉ work.env.entries.map Prod.fst := Environment.get?_eq_none_iff.mp hget
      apply Environment.get?_eq_none_iff.mpr
      rw [hwork.entries_eq, List.map_map]
      exact hfree
  | some value =>
      have hmem : (name, value) ∈ work.env.entries := Environment.get?_eq_some_iff.mp hget
      apply Environment.get?_eq_some_iff.mpr
      rw [hwork.entries_eq]
      exact List.mem_map.mpr ⟨(name, value), hmem, rfl⟩

/-- Two outcomes of steps that start in related workspaces. -/
inductive Outcome (mirror : Mirroring) (cargo : Cargo α) (start : Workspace) :
    Except LoadError α × Workspace → Except LoadError α × Workspace → Prop where
  | ok {a : α} {work work' : Workspace} (hwork : mirror.Related work work')
      (hkeeps : ∀ {value}, start.graph.Resolves value → work.graph.Resolves value)
      (hnew : ∀ value ∈ cargo.values a, work.graph.Resolves value) :
      mirror.Outcome cargo start (.ok a, work) (.ok (cargo.move mirror.offset a), work')
  | error {error error' : LoadError} (halike : mirror.alike error error')
      (work work' : Workspace) :
      mirror.Outcome cargo start (.error error, work) (.error error', work')

/-- Nothing is changed and no value is found. -/
theorem outcome_look {work work' : Workspace} (hwork : mirror.Related work work') (a : α) :
    mirror.Outcome .data work (.ok a, work) (.ok a, work') :=
  .ok hwork id (List.forall_mem_nil _)

/-- Two lowerings in step, given that the graph has some values. -/
structure InStep (mirror : Mirroring) (live : List Handle) (cargo : Cargo α)
    (m m' : Lowering α) : Prop where
  run_outcome : ∀ {work work' : Workspace}, mirror.Related work work' →
    (∀ value ∈ live, work.graph.Resolves value) →
      mirror.Outcome cargo work (m.run.run work) (m'.run.run work')

/-- Two lowerings in step that come to the same. -/
abbrev SameData (mirror : Mirroring) (live : List Handle) (m m' : Lowering α) : Prop :=
  mirror.InStep live .data m m'

/-- Two lowerings in step that come to one value, counted from different positions. -/
abbrev SameValue (mirror : Mirroring) (live : List Handle) (m m' : Lowering Handle) : Prop :=
  mirror.InStep live .value m m'

/-- The same for a list of values. -/
abbrev SameValues (mirror : Mirroring) (live : List Handle) (m m' : Lowering (List Handle)) :
    Prop :=
  mirror.InStep live (.list .value) m m'

section

variable {cargo : Cargo α} {result : Cargo β} {m m' : Lowering α}

theorem InStep.mono {more : List Handle} (hm : mirror.InStep live cargo m m')
    (hlive : live ⊆ more) :
    mirror.InStep more cargo m m' :=
  ⟨fun hwork hmore => hm.run_outcome hwork fun value hvalue => hmore value (hlive hvalue)⟩

/-! ## Sequences and branches -/

theorem InStep.bind {f f' : α → Lowering β} (hm : mirror.InStep live cargo m m')
    (hf : ∀ a, mirror.InStep (cargo.values a ++ live) result (f a)
      (f' (cargo.move mirror.offset a))) :
    mirror.InStep live result (m >>= f) (m' >>= f') := by
  refine ⟨fun {work work'} hwork hlive => ?_⟩
  have hfirst := hm.run_outcome hwork hlive
  rw [Lowering.run_bind, Lowering.run_bind]
  generalize m.run.run work = outcome at hfirst ⊢
  generalize m'.run.run work' = outcome' at hfirst ⊢
  cases hfirst with
  | error halike next next' => exact .error halike next next'
  | @ok a next next' hnext hkeeps hnew =>
      have hlive' : ∀ value ∈ cargo.values a ++ live, next.graph.Resolves value := by
        intro value hvalue
        rcases List.mem_append.mp hvalue with hcarried | hold
        · exact hnew value hcarried
        · exact hkeeps (hlive value hold)
      have hrest := (hf a).run_outcome hnext hlive'
      dsimp only
      generalize (f a).run.run next = last at hrest ⊢
      generalize (f' (cargo.move mirror.offset a)).run.run next' = last' at hrest ⊢
      cases hrest with
      | error halike _ _ => exact .error halike _ _
      | ok hlast hkeeps' hnew' => exact .ok hlast (fun hvalue => hkeeps' (hkeeps hvalue)) hnew'

theorem SameData.bind {f f' : α → Lowering β} (hm : mirror.SameData live m m')
    (hf : ∀ a, mirror.InStep live result (f a) (f' a)) :
    mirror.InStep live result (m >>= f) (m' >>= f') :=
  InStep.bind hm hf

theorem SameValue.bind {m m' : Lowering Handle} {f f' : Handle → Lowering β}
    (hm : mirror.SameValue live m m')
    (hf : ∀ value, mirror.InStep (value :: live) result (f value)
      (f' (value.shift mirror.offset))) :
    mirror.InStep live result (m >>= f) (m' >>= f') :=
  InStep.bind hm hf

theorem SameValues.bind {m m' : Lowering (List Handle)} {f f' : List Handle → Lowering β}
    (hm : mirror.SameValues live m m')
    (hf : ∀ values, mirror.InStep (values ++ live) result (f values)
      (f' (values.map (·.shift mirror.offset)))) :
    mirror.InStep live result (m >>= f) (m' >>= f') := by
  apply InStep.bind hm
  intro values
  apply (hf values).mono
  simp [Cargo.list, Cargo.value]

theorem InStep.ite {c : Prop} [Decidable c] {n n' : Lowering α}
    (hyes : mirror.InStep live cargo m m') (hno : mirror.InStep live cargo n n') :
    mirror.InStep live cargo (if c then m else n) (if c then m' else n') := by
  by_cases hc : c
  · rwa [if_pos hc, if_pos hc]
  · rwa [if_neg hc, if_neg hc]

theorem inStep_pure {a a' : α} (ha : a' = cargo.move mirror.offset a)
    (hlive : cargo.values a ⊆ live) :
    mirror.InStep live cargo (pure a) (pure a') := by
  subst ha
  exact ⟨fun hwork hvalues => .ok hwork id fun value hvalue => hvalues value (hlive hvalue)⟩

theorem sameData_pure (a : α) : mirror.SameData live (pure a) (pure a) :=
  inStep_pure rfl (List.nil_subset live)

theorem sameValue_pure {value : Handle} (hvalue : value ∈ live) :
    mirror.SameValue live (pure value) (pure (value.shift mirror.offset)) :=
  inStep_pure rfl (List.cons_subset.mpr ⟨hvalue, List.nil_subset live⟩)

theorem inStep_throw {error error' : LoadError} (heq : error' = error) :
    mirror.InStep live cargo (throw error) (throw error') := by
  subst heq
  exact ⟨fun {work work'} _ _ => .error (mirror.alike_refl _) work work'⟩

theorem inStep_throw_bind {error error' : LoadError} {f f' : α → Lowering β}
    (heq : error' = error) :
    mirror.InStep live result (throw error >>= f) (throw error' >>= f') := by
  subst heq
  exact ⟨fun {work work'} _ _ => .error (mirror.alike_refl _) work work'⟩

theorem inStep_pure_bind {a a' : α} {f f' : α → Lowering β}
    (hf : mirror.InStep live result (f a) (f' a')) :
    mirror.InStep live result (pure a >>= f) (pure a' >>= f') := by
  rwa [pure_bind, pure_bind]

theorem sameData_ofExcept {x x' : Except LoadError α} (hsame : SameOutcome mirror.alike x x') :
    mirror.SameData live (Lowering.ofExcept x) (Lowering.ofExcept x') := by
  cases hsame with
  | ok value => exact sameData_pure value
  | error halike => exact ⟨fun {work work'} _ _ => .error halike work work'⟩

end

theorem InStep.mapM {cargo : Cargo β} {f f' : α → Lowering β} {xs xs' : List α}
    (hsteps : List.Forall₂ (fun x x' => mirror.InStep live cargo (f x) (f' x')) xs xs') :
    mirror.InStep live cargo.list (xs.mapM f) (xs'.mapM f') := by
  induction hsteps with
  | nil => exact inStep_pure rfl (List.nil_subset live)
  | cons hstep hrest ih =>
      rw [List.mapM_cons, List.mapM_cons]
      apply hstep.bind
      intro y
      apply (ih.mono (List.subset_append_right ..)).bind
      intro ys
      apply inStep_pure rfl
      intro value hvalue
      rcases List.mem_append.mp hvalue with hfirst | hothers
      · exact List.mem_append_right _ (List.mem_append_left _ hfirst)
      · exact List.mem_append_left _ hothers

theorem SameData.mapM {f f' : α → Lowering β} {xs xs' : List α}
    (hsteps : List.Forall₂ (fun x x' => mirror.SameData live (f x) (f' x')) xs xs') :
    mirror.SameData live (xs.mapM f) (xs'.mapM f') := by
  have hmapped := InStep.mapM hsteps
  rwa [Cargo.list_data] at hmapped

theorem SameData.forM {f f' : α → Lowering Unit} {xs xs' : List α}
    (hsteps : List.Forall₂ (fun x x' => mirror.SameData live (f x) (f' x')) xs xs') :
    mirror.SameData live (xs.forM f) (xs'.forM f') := by
  induction hsteps with
  | nil => exact sameData_pure _
  | cons hstep hrest ih => exact hstep.bind fun _ => ih

/-! ## Steps that look -/

theorem sameValue_resolve (label label' name : String) (hlabel : label' = label) :
    mirror.SameValue live (Lowering.resolve label name) (Lowering.resolve label' name) := by
  subst hlabel
  refine ⟨fun {work work'} hwork _ => ?_⟩
  rw [Lowering.resolve, Lowering.run_bind, Lowering.run_bind, Lowering.run_get, Lowering.run_get]
  dsimp only
  rw [Environment.resolve, Environment.resolve, hwork.get?_eq]
  cases hget : work.env.get? name with
  | none => exact .error (mirror.alike_refl _) work work'
  | some value =>
      have hentry : (name, value) ∈ work.env.entries := Environment.get?_eq_some_iff.mp hget
      have hvalue : work.graph.Resolves value := hwork.resolves _ hentry
      have hnew : ∀ found ∈ Cargo.value.values value, work.graph.Resolves found := by
        simpa [Cargo.value] using hvalue
      exact .ok hwork id hnew

theorem sameValue_input (hop : op.ReadsAlike mirror.alike op') (index : Nat) :
    mirror.SameValue live (Lowering.input op index) (Lowering.input op' index) := by
  unfold Lowering.input
  rw [hop.inputs_eq]
  split
  · exact sameValue_resolve _ _ _ hop.label_eq
  · exact inStep_throw (hop.malformed_eq _ _)

theorem sameData_typeOf (op op' : Operator) {value : Handle} (hvalue : value ∈ live) :
    mirror.SameData live (Lowering.typeOf op value)
      (Lowering.typeOf op' (value.shift mirror.offset)) := by
  refine ⟨fun {work work'} hwork hlive => ?_⟩
  obtain ⟨type, htype⟩ := hlive value hvalue
  have htype' := (hwork.valueType_eq ⟨type, htype⟩).trans htype
  rw [Lowering.typeOf, Lowering.typeOf, Lowering.run_bind, Lowering.run_bind, Lowering.run_get,
    Lowering.run_get]
  dsimp only
  rw [htype, htype']
  exact outcome_look hwork type

theorem sameData_dimsOf (op op' : Operator) {value : Handle} (hvalue : value ∈ live) :
    mirror.SameData live (Lowering.dimsOf op value)
      (Lowering.dimsOf op' (value.shift mirror.offset)) :=
  (sameData_typeOf op op' hvalue).bind fun _ => sameData_pure _

theorem sameData_constant? (value : Handle) :
    mirror.SameData live (Lowering.constant? value)
      (Lowering.constant? (value.shift mirror.offset)) := by
  refine ⟨fun {work work'} hwork _ => ?_⟩
  rw [Lowering.constant?, Lowering.constant?, Lowering.run_bind, Lowering.run_bind,
    Lowering.run_get, Lowering.run_get]
  have hnode : work'.graph.nodes[(value.shift mirror.offset).node]?.bind Node.constant? =
      work.graph.nodes[value.node]?.bind Node.constant? := by
    rw [hwork.graph_eq, Handle.shift, offset, Graph.getElem?_followedBy]
    cases work.graph.nodes[value.node]? with
    | none => rfl
    | some node => exact node.constant?_shift _
  dsimp only
  rw [hnode]
  exact outcome_look hwork _

theorem inStep_optionalInput (hop : op.ReadsAlike mirror.alike op') (index : Nat) :
    mirror.InStep live .optional (Lowering.optionalInput op index)
      (Lowering.optionalInput op' index) := by
  unfold Lowering.optionalInput
  rw [hop.inputs_eq]
  apply InStep.ite
  · apply (sameValue_input hop index).bind
    intro value
    exact inStep_pure rfl (List.cons_subset_cons value (List.nil_subset live))
  · exact inStep_pure rfl (List.nil_subset live)

theorem sameValues_allInputs (hop : op.ReadsAlike mirror.alike op') :
    mirror.SameValues live (Lowering.allInputs op) (Lowering.allInputs op') := by
  have hfind : mirror.SameValues live
      (op.inputs.mapM (Lowering.resolve op.label))
      (op.inputs.mapM (Lowering.resolve op'.label)) := by
    apply InStep.mapM
    exact List.forall₂_same.mpr fun name _ => sameValue_resolve _ _ name hop.label_eq
  unfold Lowering.allInputs
  rw [hop.inputs_eq]
  apply InStep.ite
  · exact inStep_throw_bind (hop.malformed_eq "input" _)
  · exact hfind

theorem sameData_canonicalAxis (hop : op.ReadsAlike mirror.alike op') (arg : String) (axis : Int)
    (rank : Nat) :
    mirror.SameData live (Lowering.canonicalAxis op arg axis rank)
      (Lowering.canonicalAxis op' arg axis rank) :=
  .ite (sameData_pure _) (inStep_throw (hop.malformed_eq _ _))

theorem outOfDomain_eq (hop : op.ReadsAlike mirror.alike op') :
    LoadError.outOfDomain op'.label = .outOfDomain op.label :=
  congrArg _ hop.label_eq

theorem sameData_extentAt (hop : op.ReadsAlike mirror.alike op') (dims : List Nat) (index : Nat) :
    mirror.SameData live (Lowering.extentAt op dims index) (Lowering.extentAt op' dims index) := by
  unfold Lowering.extentAt
  split
  · exact sameData_pure _
  · exact inStep_throw (outOfDomain_eq hop)

theorem sameData_difference (hop : op.ReadsAlike mirror.alike op') (a b : Nat) :
    mirror.SameData live (Lowering.difference op a b) (Lowering.difference op' a b) :=
  .ite (sameData_pure _) (inStep_throw (outOfDomain_eq hop))

theorem sameData_splitAt (hop : op.ReadsAlike mirror.alike op') (dims : List Nat) (axis : Nat) :
    mirror.SameData live (Lowering.splitAt op dims axis) (Lowering.splitAt op' dims axis) :=
  .ite (sameData_pure _) (inStep_throw (outOfDomain_eq hop))

theorem sameData_matrixDims (hop : op.ReadsAlike mirror.alike op') (dims : List Nat)
    (axis : Nat) :
    mirror.SameData live (Lowering.matrixDims op dims axis)
      (Lowering.matrixDims op' dims axis) :=
  (sameData_splitAt hop dims axis).bind fun _ => sameData_pure _

/-! ## Steps that append -/

theorem sameValue_append {refuse refuse' : GraphError → LoadError}
    {add add' : Graph → Except GraphError (Graph × Handle)} {name name' : String}
    {kind : NodeKind} (hadd : ∀ graph, add graph = graph.append name kind)
    (hadd' : ∀ graph, add' graph = graph.append name' (kind.shift mirror.offset))
    (hname : name' = name) (hrefuse : refuse' = refuse) (hkind : kind.StandsAlone)
    (hoperands : kind.operands ⊆ live)
    (hfree : kind.isVariable → mirror.before.findVariable? name = none) :
    mirror.SameValue live (Lowering.append refuse add) (Lowering.append refuse' add') := by
  subst hname hrefuse
  refine ⟨fun {work work'} hwork hlive => ?_⟩
  have hfound (value : Handle) (hvalue : value ∈ kind.operands) : work.graph.Resolves value :=
    hlive value (hoperands hvalue)
  rw [Lowering.run_append, Lowering.run_append, hadd, hadd', hwork.graph_eq, offset,
    Graph.append_followedBy hkind hfound hfree]
  cases happend : work.graph.append name' kind with
  | error error => exact .error (mirror.alike_refl _) work work'
  | ok added =>
      rcases added with ⟨next, value⟩
      refine .ok ⟨rfl, hwork.entries_eq, fun entry hentry => ?_⟩ ?_ ?_
      · exact (hwork.resolves entry hentry).append happend
      · exact fun hvalue => hvalue.append happend
      · intro found hfound
        obtain rfl := List.mem_singleton.mp hfound
        exact Graph.resolves_of_append hkind happend

/-- Two builders that append one node, to be placed in different graphs. -/
structure Builds (mirror : Mirroring) (live : List Handle)
    (add add' : Graph → Except GraphError (Graph × Handle)) (name name' : String)
    (kind : NodeKind) : Prop where
  add_eq : ∀ graph, add graph = graph.append name kind
  add_eq' : ∀ graph, add' graph = graph.append name' (kind.shift mirror.offset)
  name_eq : name' = name
  computes : kind.Computes
  operands : kind.operands ⊆ live

theorem sameValue_build (hop : op.ReadsAlike mirror.alike op')
    {add add' : Graph → Except GraphError (Graph × Handle)} {name name' : String}
    {kind : NodeKind} (hadd : mirror.Builds live add add' name name' kind) :
    mirror.SameValue live (Lowering.build op add) (Lowering.build op' add') := by
  have hrefuse : LoadError.ofGraphError op'.label = .ofGraphError op.label :=
    congrArg _ hop.label_eq
  apply sameValue_append hadd.add_eq hadd.add_eq' hadd.name_eq hrefuse
    hadd.computes.inner.standsAlone hadd.operands
  intro hvariable
  exact absurd hvariable hadd.computes.not_isVariable

theorem sameValue_reshapeTo (hop : op.ReadsAlike mirror.alike op') {value : Handle}
    (hvalue : value ∈ live) (dims : List Nat) (suffix : String) :
    mirror.SameValue live (Lowering.reshapeTo op value dims suffix)
      (Lowering.reshapeTo op' (value.shift mirror.offset) dims suffix) := by
  apply (sameData_dimsOf op op' hvalue).bind
  intro found
  apply InStep.ite
  · exact sameValue_pure hvalue
  · have hoperands : [value] ⊆ live := List.cons_subset.mpr ⟨hvalue, List.nil_subset live⟩
    exact sameValue_build hop
      ⟨fun _ => rfl, fun _ => rfl, hop.nodeName_eq _, trivial, hoperands⟩

/-! ## Steps that bind -/

theorem sameData_bindName (name : String) {value : Handle} (hvalue : value ∈ live) :
    mirror.SameData live (Lowering.bindName name value)
      (Lowering.bindName name (value.shift mirror.offset)) := by
  refine ⟨fun {work work'} hwork hlive => ?_⟩
  have hnames : work'.env.entries.map Prod.fst = work.env.entries.map Prod.fst := by
    rw [hwork.entries_eq, List.map_map]
    rfl
  rw [Lowering.run_bindName, Lowering.run_bindName, Environment.bind, Environment.bind]
  by_cases hbound : name ∈ work.env.entries.map Prod.fst
  · rw [dif_pos hbound, dif_pos (hnames ▸ hbound)]
    exact .error (mirror.alike_refl _) work work'
  · rw [dif_neg hbound, dif_neg (hnames ▸ hbound)]
    refine .ok ⟨hwork.graph_eq, ?_, ?_⟩ id (List.forall_mem_nil _)
    · simp [hwork.entries_eq]
    · intro entry hentry
      rcases List.mem_append.mp hentry with hold | hnew
      · exact hwork.resolves entry hold
      · rw [List.mem_singleton.mp hnew]
        exact hlive value hvalue

theorem sameData_bindOutput (hop : op.ReadsAlike mirror.alike op') (index : Nat) {value : Handle}
    (hvalue : value ∈ live) :
    mirror.SameData live (Lowering.bindOutput op index value)
      (Lowering.bindOutput op' index (value.shift mirror.offset)) := by
  unfold Lowering.bindOutput
  rw [hop.outputs_eq]
  split
  · exact sameData_bindName _ hvalue
  · exact inStep_throw (hop.malformed_eq _ _)

theorem sameData_bindConstantOutput (hop : op.ReadsAlike mirror.alike op') (index : Nat)
    (tensor : Tensor) (hfree : ∀ name, op.outputs[index]? = some name →
      mirror.before.findVariable? (Lowering.nodeName op name) = none) :
    mirror.SameData live (Lowering.bindConstantOutput op index tensor)
      (Lowering.bindConstantOutput op' index tensor) := by
  unfold Lowering.bindConstantOutput
  rw [hop.outputs_eq]
  split
  · exact sameData_pure _
  · next name hname =>
      have hrefuse : LoadError.ofVariableError op'.label = .ofVariableError op.label :=
        congrArg _ hop.label_eq
      have hconstant : mirror.SameValue live
          (Lowering.append (.ofVariableError op.label) fun graph =>
            graph.constant (Lowering.nodeName op name) tensor)
          (Lowering.append (.ofVariableError op'.label) fun graph =>
            graph.constant (Lowering.nodeName op' name) tensor) := by
        apply sameValue_append (fun _ => rfl) (fun _ => rfl) (hop.nodeName_eq name) hrefuse
        · exact ⟨nofun, nofun⟩
        · exact List.nil_subset live
        · exact fun _ => hfree name hname
      exact hconstant.bind fun value => sameData_bindName name (List.mem_cons_self ..)

end Mirroring
end NetImport
