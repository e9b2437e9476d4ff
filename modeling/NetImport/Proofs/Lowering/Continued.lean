import NetImport.Proofs.Lowering.SafeHandlers

/-!
# Lowering on after a failure

A lowering that fails leaves behind what its steps have appended and bound.  The operators
after it can still be lowered: what was there before is as it was, and every name stands for
a value of the graph.
-/

namespace NetImport

namespace Workspace

/-- A workspace that another one has grown into, and that is fit for the next operator. -/
structure Continues (start last : Workspace) : Prop where
  nodes_prefix : start.graph.nodes.toList <+: last.graph.nodes.toList
  entries_prefix : start.env.entries <+: last.env.entries
  sound : last.Sound
  distinct : (last.env.entries.map Prod.fst).Nodup
  get?_iff : ∀ name value, last.env.get? name = some value ↔ (name, value) ∈ last.env.entries

variable {start last : Workspace}

theorem Grows.continues (hgrows : start.Grows last) (hsound : last.Sound) :
    start.Continues last := by
  obtain ⟨nodes, bindings, happends⟩ := hgrows.appends
  constructor
  · exact ⟨nodes, happends.nodes_eq.symm⟩
  · exact ⟨bindings, happends.entries_eq.symm⟩
  · exact hsound
  · exact last.env.distinct
  · exact fun name value => Environment.get?_eq_some_iff

end Workspace

namespace Lowering

variable {op : Operator} {start work last : Workspace}

/-- The workspace after some operators have been lowered in turn, no matter which failed. -/
def lowerOn (ops : List Operator) (start : Workspace) : Workspace :=
  ops.foldl (fun work op => ((operator op).run.run work).2) start

/-- One operator keeps the workspace sound, whatever it comes to. -/
theorem sound_operator (hsound : work.Sound) (op : Operator) :
    ((operator op).run.run work).2.Sound := by
  have hend := (safe_operator op work).run_endsWell hsound
  generalize (operator op).run.run work = outcome at hend ⊢
  cases hend with
  | ok _ hsound _ => exact hsound
  | error _ hsound _ => exact hsound

theorem continues_lowerOn (hsound : start.Sound) (ops : List Operator) :
    start.Grows (lowerOn ops start) ∧ (lowerOn ops start).Sound := by
  induction ops generalizing start with
  | nil => exact ⟨.refl, hsound⟩
  | cons op ops ih =>
      obtain ⟨hgrows, hlast⟩ := ih (sound_operator hsound op)
      exact ⟨((grows_operator op).run_related start).trans hgrows, hlast⟩

theorem proper_of_run_operator {error : LoadError} (hsound : work.Sound)
    (hrun : (operator op).run.run work = (.error error, last)) : error.Proper := by
  have hend := (safe_operator op work).run_endsWell hsound
  rw [hrun] at hend
  cases hend with
  | error _ _ hproper => exact hproper

/-- An operator that is lowered has a first output. -/
theorem declared_of_run_operator {result : Unit}
    (hrun : (operator op).run.run work = (.ok result, last)) :
    ∃ name, op.outputs[0]? = some name := by
  unfold operator at hrun
  split at hrun
  · cases hrun
  · next kind hkind =>
      obtain ⟨next, -, ⟨error, -, hfailed⟩ | ⟨final, hfinal, hcomes⟩⟩ :=
        (comesTo_ofKind kind op).run_comes work
      · rw [hfailed] at hrun
        cases hrun
      · rw [hcomes] at hrun
        unfold FinalStep at hfinal
        split at hfinal
        · obtain ⟨value, tensor, -, rfl⟩ := hfinal
          obtain ⟨_, _, hbind, -⟩ := run_bind_eq_ok_iff.mp hrun
          obtain ⟨name, hname, -⟩ := appends_of_run_bindOutput hbind
          exact ⟨name, hname⟩
        · obtain ⟨value, rfl⟩ := hfinal
          obtain ⟨name, hname, -⟩ := appends_of_run_bindOutput hrun
          exact ⟨name, hname⟩

/-- Operators are lowered in turn in a workspace whose bindings are sound, and go on after
failures.  Each of them leaves what was there before as it was and every binding sound.  One
that is lowered binds its own outputs and nothing else, and one that is not has not missed a
value. -/
theorem lowering_continues (hsound : start.Sound) (ops : List Operator) (op : Operator) :
    start.Continues (lowerOn ops start) ∧
      (lowerOn ops start).Continues ((operator op).run.run (lowerOn ops start)).2 ∧
      (∀ last, (operator op).run.run (lowerOn ops start) = (.ok (), last) →
        ∃ name bindings, op.outputs[0]? = some name ∧
          last.env.entries = (lowerOn ops start).env.entries ++ bindings ∧
          bindings.map Prod.fst = name :: op.auxiliary?.toList) ∧
      ∀ error last, (operator op).run.run (lowerOn ops start) = (.error error, last) →
        ∀ label value, error ≠ .ofGraphError label (.unknownValue value) := by
  obtain ⟨hgrows, hwork⟩ := continues_lowerOn hsound ops
  refine ⟨hgrows.continues hwork, ?_, ?_, ?_⟩
  · exact ((grows_operator op).run_related _).continues (sound_operator hwork op)
  · intro last hrun
    obtain ⟨name, hname⟩ := declared_of_run_operator hrun
    obtain ⟨nodes, bindings, hlowers⟩ := lowers_of_run_operator hrun
    refine ⟨name, bindings, hname, hlowers.appends.entries_eq, ?_⟩
    rw [hlowers.boundNames, List.flatMap_singleton, Operator.boundNames, hname]
    rfl
  · intro error last hrun label value
    exact (proper_of_run_operator hwork hrun).ne_unknownValue label value

/-- A concatenation whose second output has a name that is taken. -/
def halfBound : Operator :=
  ⟨"Concat", ["x", "x"], ["y", "x"], none, .empty⟩

/-- An operator on the output of the concatenation. -/
def rectified : Operator := ⟨"Relu", ["y"], ["z"], none, .empty⟩

def joinedOperand : Workspace where
  graph := ⟨"joined", #[
    ⟨"x", .variable .placeholder ⟨.f32, ⟨[2, 3]⟩⟩, [⟨.f32, ⟨[2, 3]⟩⟩]⟩]⟩
  env := ⟨[("x", .first 0)], List.nodup_singleton "x"⟩

/-- The concatenation fails when its first output is bound, which is used afterwards. -/
theorem joinedOperand_lowering_continues :
    (((operator halfBound).run.run joinedOperand).1 = .error (.nameConflict "x") ∧
      ((operator halfBound).run.run joinedOperand).2.env.entries.map Prod.fst = ["x", "y"]) ∧
    ∃ last bindings, (operator rectified).run.run (lowerOn [halfBound] joinedOperand) =
        (.ok (), last) ∧
      last.Sound ∧
      last.env.entries = (lowerOn [halfBound] joinedOperand).env.entries ++ bindings ∧
      bindings.map Prod.fst = ["z"] := by
  have hsound : joinedOperand.Sound := by
    intro entry hentry
    obtain rfl := List.mem_singleton.mp hentry
    exact ⟨_, rfl⟩
  have hlowered : ((operator rectified).run.run (lowerOn [halfBound] joinedOperand)).1 =
      .ok () := by decide +kernel
  have hrun : (operator rectified).run.run (lowerOn [halfBound] joinedOperand) =
      (.ok (), ((operator rectified).run.run (lowerOn [halfBound] joinedOperand)).2) :=
    Prod.ext hlowered rfl
  obtain ⟨-, hcontinues, hbinds, -⟩ := lowering_continues hsound [halfBound] rectified
  obtain ⟨name, bindings, hname, hentries, hnames⟩ := hbinds _ hrun
  obtain rfl : "z" = name := Option.some.inj hname
  exact ⟨⟨by decide +kernel, by decide +kernel⟩, _, bindings, hrun, hcontinues.sound, hentries,
    hnames⟩

end Lowering
end NetImport
