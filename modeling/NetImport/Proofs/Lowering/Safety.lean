import NetImport.Proofs.Lowering.Handlers
import NetImport.Proofs.Lowering.Mirroring
import NetImport.Proofs.Lowering.OneOutput
import NetImport.Proofs.Model.Refusals

/-!
# Safe lowerings

A workspace is sound when every bound value is one of its graph.  A safe lowering keeps a
sound workspace sound, whether it fails or not, and if it fails then for a proper cause.
-/

namespace NetImport

namespace Workspace

/-- Every bound value has a type in the graph. -/
def Sound (work : Workspace) : Prop :=
  ∀ entry ∈ work.env.entries, work.graph.Resolves entry.2

/-- An outcome of a safe lowering. -/
inductive EndsWell {α : Type} (start : Workspace) (post : α → Workspace → Prop) :
    Except LoadError α × Workspace → Prop where
  | ok {a : α} {last : Workspace} (hgrows : start.Grows last) (hsound : last.Sound)
      (hpost : post a last) : start.EndsWell post (.ok a, last)
  | error {error : LoadError} {last : Workspace} (hgrows : start.Grows last)
      (hsound : last.Sound) (hproper : error.Proper) : start.EndsWell post (.error error, last)

variable {work next : Workspace} {name : String} {kind : NodeKind} {value : Handle}

theorem Grows.resolves (hgrows : work.Grows next) (hvalue : work.graph.Resolves value) :
    next.graph.Resolves value := by
  obtain ⟨type, htype⟩ := hvalue
  exact ⟨type, hgrows.valueType_eq htype⟩

/-- A value with so many axes. -/
def HasRank (work : Workspace) (rank : Nat) (value : Handle) : Prop :=
  ∃ type, work.graph.valueType value = .ok type ∧ type.dims.length = rank

theorem HasRank.resolves {rank : Nat} (hvalue : work.HasRank rank value) :
    work.graph.Resolves value :=
  hvalue.imp fun _ => And.left

theorem HasRank.mono {rank : Nat} (hvalue : work.HasRank rank value) (hgrows : work.Grows next) :
    next.HasRank rank value :=
  hvalue.imp fun _ htype => ⟨hgrows.valueType_eq htype.1, htype.2⟩

theorem Sound.append {graph : Graph} (hsound : work.Sound)
    (happend : work.graph.append name kind = .ok (graph, value)) :
    Sound { work with graph := graph } :=
  fun entry hentry => (hsound entry hentry).append happend

theorem Sound.bind {env : Environment} (hsound : work.Sound)
    (hvalue : work.graph.Resolves value) (hbind : work.env.bind name value = .ok env) :
    Sound { work with env := env } := by
  have hentries := (appends_of_bind hbind).entries_eq
  dsimp only at hentries
  intro entry hentry
  dsimp only at hentry
  rw [hentries] at hentry
  rcases List.mem_append.mp hentry with hold | hnew
  · exact hsound entry hold
  · rw [List.mem_singleton.mp hnew]
    exact hvalue

theorem Sound.resolves_of_get? (hsound : work.Sound) (hget : work.env.get? name = some value) :
    work.graph.Resolves value :=
  hsound _ (Environment.get?_eq_some_iff.mp hget)

end Workspace

namespace Lowering

variable {α β : Type} {op : Operator} {work : Workspace} {m : Lowering α}
  {post : β → Workspace → Prop}

/-- A lowering that is safe in a workspace, and comes to results that satisfy `post`. -/
structure Safe (m : Lowering α) (work : Workspace) (post : α → Workspace → Prop) : Prop where
  run_endsWell : work.Sound → work.EndsWell post (m.run.run work)

/-- A lowering of which no more is known than that it is safe. -/
abbrev IsSafe (m : Lowering α) (work : Workspace) : Prop := Safe m work fun _ _ => True

/-- A step that leaves the workspace as it is, and finds something that satisfies `found`. -/
structure Looks (m : Lowering α) (work : Workspace) (found : α → Prop) : Prop where
  run_looks : work.Sound → (∃ a, m.run.run work = (.ok a, work) ∧ found a) ∨
    ∃ error, m.run.run work = (.error error, work) ∧ error.Proper

/-! ## Sequences -/

theorem safe_pure {post : α → Workspace → Prop} {a : α} (ha : post a work) :
    Safe (pure a) work post :=
  ⟨fun hsound => .ok .refl hsound ha⟩

theorem safe_throw {post : α → Workspace → Prop} {error : LoadError} (herror : error.Proper) :
    Safe (throw error) work post :=
  ⟨fun hsound => .error .refl hsound herror⟩

theorem Safe.mono {post post' : α → Workspace → Prop} (hm : Safe m work post)
    (hpost : ∀ {a last}, post a last → post' a last) : Safe m work post' := by
  refine ⟨fun hsound => ?_⟩
  have hend := hm.run_endsWell hsound
  generalize m.run.run work = outcome at hend ⊢
  cases hend with
  | ok hgrows hsound ha => exact .ok hgrows hsound (hpost ha)
  | error hgrows hsound hproper => exact .error hgrows hsound hproper

theorem safe_bind {f : α → Lowering β} {mid : α → Workspace → Prop} (hm : Safe m work mid)
    (hf : ∀ a next, work.Grows next → mid a next → Safe (f a) next post) :
    Safe (m >>= f) work post := by
  refine ⟨fun hsound => ?_⟩
  have hend := hm.run_endsWell hsound
  rw [run_bind]
  generalize m.run.run work = outcome at hend ⊢
  cases hend with
  | error hgrows hsound hproper => exact .error hgrows hsound hproper
  | @ok a next hgrows hsound ha =>
      have hlast := (hf a next hgrows ha).run_endsWell hsound
      dsimp only
      generalize (f a).run.run next = outcome at hlast ⊢
      cases hlast with
      | ok hrest hsound hpost => exact .ok (hgrows.trans hrest) hsound hpost
      | error hrest hsound hproper => exact .error (hgrows.trans hrest) hsound hproper

theorem safe_bind_look {f : α → Lowering β} {found : α → Prop} (hm : Looks m work found)
    (hf : ∀ a, found a → Safe (f a) work post) :
    Safe (m >>= f) work post := by
  refine ⟨fun hsound => ?_⟩
  rw [run_bind]
  rcases hm.run_looks hsound with ⟨a, hrun, ha⟩ | ⟨error, hrun, hproper⟩
  · rw [hrun]
    exact (hf a ha).run_endsWell hsound
  · rw [hrun]
    exact .error .refl hsound hproper

/-- A look that finds what is there. -/
theorem safe_bind_of_run {f : α → Lowering β} {a : α} (hm : m.run.run work = (.ok a, work))
    (hf : Safe (f a) work post) :
    Safe (m >>= f) work post := by
  refine ⟨fun hsound => ?_⟩
  rw [run_bind, hm]
  exact hf.run_endsWell hsound

theorem safe_throw_bind {f : α → Lowering β} {error : LoadError} (herror : error.Proper) :
    Safe (throw error >>= f) work post :=
  ⟨fun hsound => .error .refl hsound herror⟩

theorem safe_ite {c : Prop} [Decidable c] {yes no : Lowering β}
    (hyes : c → Safe yes work post) (hno : ¬c → Safe no work post) :
    Safe (if c then yes else no) work post := by
  split
  · next hc => exact hyes hc
  · next hc => exact hno hc

theorem safe_mapM {f : α → Lowering β} (good : β → Workspace → Prop)
    (hgrow : ∀ {b work next}, good b work → Workspace.Grows work next → good b next)
    {xs : List α} (hf : ∀ a ∈ xs, ∀ next, work.Grows next → Safe (f a) next good) :
    Safe (xs.mapM f) work fun ys last => ∀ b ∈ ys, good b last := by
  induction xs generalizing work with
  | nil =>
      rw [List.mapM_nil]
      exact safe_pure (List.forall_mem_nil _)
  | cons x xs ih =>
      rw [List.forall_mem_cons] at hf
      rw [List.mapM_cons]
      refine safe_bind (hf.1 work .refl) fun y next hnext hy => ?_
      have hrest := ih fun a ha other hother => hf.2 a ha other (hnext.trans hother)
      refine safe_bind hrest fun ys last hlast hys => ?_
      exact safe_pure (List.forall_mem_cons.mpr ⟨hgrow hy hlast, hys⟩)

/-! ## Looks -/

theorem looks_of_run {found : α → Prop} {a : α} (hm : m.run.run work = (.ok a, work))
    (ha : found a) : Looks m work found :=
  ⟨fun _ => .inl ⟨a, hm, ha⟩⟩

theorem looks_throw {found : α → Prop} {error : LoadError} (herror : error.Proper) :
    Looks (throw error) work found :=
  ⟨fun _ => .inr ⟨error, rfl, herror⟩⟩

theorem looks_bind {f : α → Lowering β} {mid : α → Prop} {found : β → Prop}
    (hm : Looks m work mid) (hf : ∀ a, mid a → Looks (f a) work found) :
    Looks (m >>= f) work found := by
  refine ⟨fun hsound => ?_⟩
  rw [run_bind]
  rcases hm.run_looks hsound with ⟨a, hrun, ha⟩ | ⟨error, hrun, hproper⟩
  · rw [hrun]
    exact (hf a ha).run_looks hsound
  · rw [hrun]
    exact .inr ⟨error, rfl, hproper⟩

theorem looks_throw_bind {f : α → Lowering β} {found : β → Prop} {error : LoadError}
    (herror : error.Proper) : Looks (throw error >>= f) work found :=
  ⟨fun _ => .inr ⟨error, rfl, herror⟩⟩

theorem looks_ite {c : Prop} [Decidable c] {yes no : Lowering α} {found : α → Prop}
    (hyes : c → Looks yes work found) (hno : ¬c → Looks no work found) :
    Looks (if c then yes else no) work found := by
  split
  · next hc => exact hyes hc
  · next hc => exact hno hc

theorem looks_mapM {f : α → Lowering β} {good : α → β → Prop} {xs : List α}
    (hf : ∀ x ∈ xs, Looks (f x) work (good x)) :
    Looks (xs.mapM f) work (List.Forall₂ good xs) := by
  induction xs with
  | nil => exact looks_of_run rfl .nil
  | cons x xs ih =>
      rw [List.forall_mem_cons] at hf
      rw [List.mapM_cons]
      refine looks_bind hf.1 fun y hy => looks_bind (ih hf.2) fun ys hys => ?_
      exact looks_of_run rfl (.cons hy hys)

theorem looks_ofExcept {result : Except LoadError α} (hread : ReadsProperly result) :
    Looks (ofExcept result) work fun a => result = .ok a := by
  refine ⟨fun _ => ?_⟩
  cases result with
  | ok a => exact .inl ⟨a, rfl, rfl⟩
  | error error => exact .inr ⟨error, rfl, (hread.holds rfl).proper⟩

theorem looks_resolve (label name : String) :
    Looks (resolve label name) work work.graph.Resolves := by
  refine ⟨fun hsound => ?_⟩
  cases hget : work.env.get? name with
  | some value => exact .inl ⟨value, run_resolve hget, hsound.resolves_of_get? hget⟩
  | none =>
      refine .inr ⟨.unboundInput label name, ?_, trivial⟩
      rw [resolve, run_bind, run_get]
      dsimp only
      rw [Environment.resolve, hget]
      rfl

theorem looks_input (index : Nat) : Looks (input op index) work work.graph.Resolves := by
  unfold input
  split
  · exact looks_resolve _ _
  · exact looks_throw trivial

theorem looks_optionalInput (index : Nat) :
    Looks (optionalInput op index) work fun value? =>
      ∀ value ∈ value?, work.graph.Resolves value := by
  unfold optionalInput
  split
  · refine looks_bind (looks_input index) fun value hvalue => ?_
    exact looks_of_run rfl fun found hfound => Option.mem_some_iff.mp hfound ▸ hvalue
  · exact looks_of_run rfl nofun

theorem Looks.mono {found found' : α → Prop} (hm : Looks m work found)
    (hfound : ∀ a, found a → found' a) : Looks m work found' := by
  refine ⟨fun hsound => ?_⟩
  rcases hm.run_looks hsound with ⟨a, hrun, ha⟩ | herror
  · exact .inl ⟨a, hrun, hfound a ha⟩
  · exact .inr herror

/-- There is one input at least, and all of them have values. -/
theorem looks_allInputs :
    Looks (allInputs op) work fun values =>
      values ≠ [] ∧ ∀ value ∈ values, work.graph.Resolves value := by
  unfold allInputs
  split
  · exact looks_bind (looks_throw trivial) fun _ => False.elim
  · next hsome =>
      have hall : Looks (op.inputs.mapM (resolve op.label)) work
          (List.Forall₂ (fun _ => work.graph.Resolves) op.inputs) :=
        looks_mapM fun name _ => looks_resolve _ name
      refine hall.mono fun values hvalues => ⟨?_, ?_⟩
      · rintro rfl
        exact hsome (by rw [List.forall₂_nil_right_iff.mp hvalues]; rfl)
      · intro value hmem
        obtain ⟨index, hindex⟩ := List.mem_iff_getElem?.mp hmem
        obtain ⟨-, -, hvalue⟩ := getElem?_of_forall₂ hvalues hindex
        exact hvalue

theorem looks_typeOf {value : Handle} (hvalue : work.graph.Resolves value) :
    Looks (typeOf op value) work fun type => work.graph.valueType value = .ok type := by
  obtain ⟨type, htype⟩ := hvalue
  refine looks_of_run ?_ htype
  rw [typeOf, run_bind, run_get]
  dsimp only
  rw [htype]
  rfl

/-- The extents of a value of some type. -/
theorem looks_dimsOf {value : Handle} (hvalue : work.graph.Resolves value) :
    Looks (dimsOf op value) work fun dims =>
      ∃ dtype, work.graph.valueType value = .ok ⟨dtype, ⟨dims⟩⟩ := by
  obtain ⟨type, htype⟩ := hvalue
  exact looks_of_run (run_dimsOf htype) ⟨type.dtype, htype⟩

theorem looks_constant? (value : Handle) : Looks (constant? value) work fun _ => True :=
  have hrun : (constant? value).run.run work =
      (.ok (work.graph.nodes[value.node]?.bind Node.constant?), work) := rfl
  looks_of_run hrun trivial

theorem looks_canonicalAxis {arg : String} {axis : Int} {rank : Nat} :
    Looks (canonicalAxis op arg axis rank) work fun place => place < rank := by
  unfold canonicalAxis
  extract_lets resolved
  split
  · next hbetween => exact looks_of_run rfl (by omega)
  · exact looks_throw trivial

theorem looks_extentAt {dims : List Nat} {index : Nat} (hindex : index < dims.length) :
    Looks (extentAt op dims index) work fun _ => True :=
  looks_of_run (run_extentAt (List.getElem?_eq_getElem hindex)) trivial

theorem looks_matrixDims {dims : List Nat} {axis : Nat} (haxis : axis ≤ dims.length) :
    Looks (matrixDims op dims axis) work fun _ => True := by
  refine looks_bind (looks_of_run (run_splitAt haxis) trivial) fun parts (_ : True) => ?_
  exact looks_of_run rfl trivial

/-! ## Steps that append and bind -/

/-- A node whose operands have values. -/
theorem safe_append {refuse : GraphError → LoadError}
    {add : Graph → Except GraphError (Graph × Handle)} {name : String} {kind : NodeKind}
    (hrefuse : ∀ error, GraphError.FindsValues error → (refuse error).Proper)
    (hadd : ∀ graph, add graph = graph.append name kind) (hkind : kind.Inner)
    (hoperands : ∀ value ∈ kind.operands, work.graph.Resolves value) :
    Safe (append refuse add) work fun value last => ∃ type,
      Typing.infer kind work.graph.nodes = .ok [type] ∧
        last.graph.valueType value = .ok type := by
  refine ⟨fun hsound => ?_⟩
  rw [run_append, hadd]
  cases happend : work.graph.append name kind with
  | error error =>
      have hfinds := (Graph.append_refuses hkind.standsAlone.2 hoperands).holds happend
      exact .error .refl hsound (hrefuse error hfinds)
  | ok appended =>
      obtain ⟨graph, value⟩ := appended
      refine .ok (.append .refl hkind happend) (hsound.append happend) ?_
      obtain ⟨results, hinfer, -, rfl, rfl⟩ := Graph.append_eq_ok_iff.mp happend
      rcases Typing.results_of_infer hinfer with ⟨⟨input, output, hsave⟩, -⟩ | ⟨-, type, rfl⟩
      · exact absurd hsave (hkind.standsAlone.2 input output)
      · refine ⟨type, hinfer, Typing.operand_eq_ok_iff.mpr ⟨⟨name, kind, [type]⟩, ?_, rfl⟩⟩
        exact Array.getElem?_push_size

theorem safe_build {add : Graph → Except GraphError (Graph × Handle)} {name : String}
    {kind : NodeKind} (hadd : ∀ graph, add graph = graph.append name kind)
    (hkind : kind.Computes) (hoperands : ∀ value ∈ kind.operands, work.graph.Resolves value) :
    Safe (build op add) work fun value last => ∃ type,
      Typing.infer kind work.graph.nodes = .ok [type] ∧
        last.graph.valueType value = .ok type :=
  safe_append (fun _ => LoadError.proper_ofGraphError _) hadd hkind.inner hoperands

theorem safe_bindName {name : String} {value : Handle} (hvalue : work.graph.Resolves value) :
    Safe (bindName name value) work fun _ _ => True := by
  refine ⟨fun hsound => ?_⟩
  rw [run_bindName]
  cases hbind : work.env.bind name value with
  | error error =>
      refine .error .refl hsound ?_
      unfold Environment.bind at hbind
      split at hbind
      · cases hbind
        trivial
      · cases hbind
  | ok env => exact .ok (.bind .refl hbind) (hsound.bind hvalue hbind) trivial

theorem safe_bindOutput {value : Handle} (hvalue : work.graph.Resolves value) (index : Nat) :
    Safe (bindOutput op index value) work fun _ _ => True := by
  unfold bindOutput
  split
  · exact safe_bindName hvalue
  · exact safe_throw trivial

theorem safe_bindConstantOutput (index : Nat) (tensor : Tensor) :
    Safe (bindConstantOutput op index tensor) work fun _ _ => True := by
  unfold bindConstantOutput
  split
  · exact safe_pure trivial
  · refine safe_bind (safe_append (fun _ => LoadError.proper_ofVariableError _) (fun _ => rfl)
      trivial (List.forall_mem_nil _)) fun value next _ hvalue => ?_
    obtain ⟨type, -, htype⟩ := hvalue
    exact safe_bindName ⟨type, htype⟩

/-- A value that only has to be there. -/
theorem safe_build_value {add : Graph → Except GraphError (Graph × Handle)} {name : String}
    {kind : NodeKind} (hadd : ∀ graph, add graph = graph.append name kind)
    (hkind : kind.Computes) (hoperands : ∀ value ∈ kind.operands, work.graph.Resolves value) :
    Safe (build op add) work fun value last => last.graph.Resolves value :=
  (safe_build hadd hkind hoperands).mono fun hresult => hresult.imp fun _ => And.right

theorem safe_build_bind {add : Graph → Except GraphError (Graph × Handle)} {name : String}
    {kind : NodeKind} {f : Handle → Lowering β}
    (hadd : ∀ graph, add graph = graph.append name kind) (hkind : kind.Computes)
    (hoperands : ∀ value ∈ kind.operands, work.graph.Resolves value)
    (hf : ∀ value next, work.Grows next → next.graph.Resolves value → Safe (f value) next post) :
    Safe (build op add >>= f) work post :=
  safe_bind (safe_build_value hadd hkind hoperands) hf

/-- The last step of most operators. -/
theorem safe_build_bindOutput {add : Graph → Except GraphError (Graph × Handle)} {name : String}
    {kind : NodeKind} (hadd : ∀ graph, add graph = graph.append name kind)
    (hkind : kind.Computes) (hoperands : ∀ value ∈ kind.operands, work.graph.Resolves value) :
    IsSafe (build op add >>= bindOutput op 0) work :=
  safe_build_bind hadd hkind hoperands fun _ _ _ hresult => safe_bindOutput hresult 0

theorem safe_reshapeTo {value : Handle} {suffix : String} (hvalue : work.graph.Resolves value)
    (dims : List Nat) :
    Safe (reshapeTo op value dims suffix) work fun value last => last.graph.Resolves value := by
  refine safe_bind_look (looks_dimsOf hvalue) fun found _ => ?_
  refine safe_ite (fun _ => safe_pure hvalue) fun _ => ?_
  exact safe_build_value (fun _ => rfl) trivial (List.forall_mem_singleton.mpr hvalue)

end Lowering
end NetImport
