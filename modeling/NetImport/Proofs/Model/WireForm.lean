import NetImport.Proofs.Model.Relocation
import NetImport.Proofs.Net.Canonical

/-!
# Importing what was read back

The wire form of a net does not tell apart lists without items, nor an empty operator name from
none.  An import does not tell them apart either, but for an empty list of texts, which no
reader takes for numbers.  So without such lists a net can be written and read before it is
imported, and nothing changes.
-/

namespace NetImport

/-- No argument is a list of no texts. -/
def Operator.NoEmptyTexts (op : Operator) : Prop :=
  ∀ entry ∈ op.args.entries, entry.2 ≠ .texts []

def NetDefinition.NoEmptyTexts (net : NetDefinition) : Prop :=
  ∀ op ∈ net.operators, op.NoEmptyTexts

theorem Arguments.get?_canonical (table : Arguments) (name : String) :
    table.canonical.get? name = (table.get? name).map ArgValue.canonical := by
  rw [get?, get?, canonical, List.find?_map, Option.map_map, Option.map_map]
  rfl

namespace Operator

variable {op : Operator}

theorem label_canonical (op : Operator) : op.canonical.label = op.label := by
  rw [label, label, canonical]
  cases op.name? with
  | none => rfl
  | some name =>
      by_cases hname : name = ""
      · simp [hname]
      · simp

/-- An argument comes back as it was, unless it is a list of no fractions. -/
@[elab_as_elim]
theorem NoEmptyTexts.lookup_cases (hop : op.NoEmptyTexts) (name : String)
    {motive : Option ArgValue → Option ArgValue → Prop} (hsame : ∀ found, motive found found)
    (hempty : motive (some (.floats [])) (some (.ints []))) :
    motive (op.args.get? name) (op.canonical.args.get? name) := by
  have hread : op.canonical.args.get? name = (op.args.get? name).map ArgValue.canonical :=
    op.args.get?_canonical name
  rw [hread]
  cases hget : op.args.get? name with
  | none => exact hsame none
  | some value =>
      cases value with
      | floats values =>
          cases values with
          | nil => exact hempty
          | cons first others => exact hsame _
      | texts values =>
          cases values with
          | nil =>
              obtain ⟨entry, hfound, hvalue⟩ := Option.map_eq_some_iff.mp hget
              exact absurd hvalue (hop entry (List.mem_of_find?_eq_some hfound))
          | cons first others => exact hsame _
      | _ => exact hsame _

instance : Std.Refl fun _ _ : LoadError => True := ⟨fun _ => trivial⟩

/-- The readers of single numbers and of texts refuse every list; those of lists take an empty
one of either kind. -/
theorem NoEmptyTexts.readsAlike_canonical (hop : op.NoEmptyTexts) :
    op.ReadsAlike (fun _ _ => True) op.canonical where
  label_eq := op.label_canonical
  kind_eq := rfl
  inputs_eq := rfl
  outputs_eq := rfl
  intArg? name := by
    unfold Operator.intArg? wrongKind malformed
    rw [op.label_canonical]
    exact hop.lookup_cases name (fun _ => .refl _) (.error trivial)
  singleArg? name := by
    unfold Operator.singleArg? wrongKind malformed
    rw [op.label_canonical]
    exact hop.lookup_cases name (fun _ => .refl _) (.error trivial)
  numberArg? name := by
    unfold Operator.numberArg? wrongKind malformed
    rw [op.label_canonical]
    exact hop.lookup_cases name (fun _ => .refl _) (.error trivial)
  integerArg? name := by
    unfold Operator.integerArg? wrongKind malformed
    rw [op.label_canonical]
    exact hop.lookup_cases name (fun _ => .refl _) (.error trivial)
  textArg? name := by
    unfold Operator.textArg? wrongKind malformed
    rw [op.label_canonical]
    exact hop.lookup_cases name (fun _ => .refl _) (.error trivial)
  intsArg? name := by
    unfold Operator.intsArg? wrongKind malformed
    rw [op.label_canonical]
    exact hop.lookup_cases name (fun _ => .refl _) (.ok _)
  singlesArg? name := by
    unfold Operator.singlesArg? wrongKind malformed
    rw [op.label_canonical]
    exact hop.lookup_cases name (fun _ => .refl _) (.ok _)

end Operator

theorem NetDefinition.NoEmptyTexts.forall₂_readsAlike {net : NetDefinition}
    (hnet : net.NoEmptyTexts) :
    List.Forall₂ (Operator.ReadsAlike fun _ _ => True) net.operators
      net.canonical.operators := by
  rw [NetDefinition.canonical, List.forall₂_map_right_iff, List.forall₂_same]
  intro op hop
  exact (hnet op hop).readsAlike_canonical

theorem Graph.name_of_load {predict init : NetDefinition} {names : List String}
    {types : List TensorType} {graph next : Graph} {loaded : LoadedModel}
    (hload : LoadedModel.load predict init names types graph = (.ok loaded, next)) :
    next.name = graph.name := by
  unfold LoadedModel.load at hload
  by_cases hlength : names.length ≠ types.length
  · rw [if_pos hlength] at hload
    cases hload
  · rw [if_neg hlength] at hload
    have hbuilds := (Lowering.builds_model predict init (names.zip types)).run_related
      ⟨graph, .empty⟩
    dsimp only at hload
    rcases hrun : (Lowering.model predict init (names.zip types)).run.run ⟨graph, .empty⟩ with
      ⟨error | found, work⟩ <;> rw [hrun] at hload hbuilds
    · cases hload
    · cases hload
      exact hbuilds.prefix_toList.1

/-- Nets without empty lists of texts are imported as what their wire forms read back to: into
the same graphs with the same outputs, or not at all.  The wire forms are taken to have lengths
of 64 bits. -/
theorem load_survives_wire_form {predict init : NetDefinition} (hpredict : predict.NoEmptyTexts)
    (hinit : init.NoEmptyTexts) (hpredictLength : predict.toWire.length < UInt64.size)
    (hinitLength : init.toWire.length < UInt64.size) :
    ∃ predict' init', NetDefinition.ofWire? predict.toWire = some predict' ∧
      NetDefinition.ofWire? init.toWire = some init' ∧
      ∀ names types graph loaded next,
        LoadedModel.load predict init names types graph = (.ok loaded, next) ↔
          LoadedModel.load predict' init' names types graph = (.ok loaded, next) := by
  refine ⟨predict.canonical, init.canonical, NetDefinition.ofWire?_toWire_eq hpredictLength,
    NetDefinition.ofWire?_toWire_eq hinitLength, ?_⟩
  intro names types graph loaded next
  have hmirrored := load_mirrored ⟨.empty graph.name, fun _ _ => True, fun _ => trivial⟩
    hpredict.forall₂_readsAlike rfl hinit.forall₂_readsAlike names types graph
    fun name _ => Graph.findVariable?_eq_none_iff.mpr nofun
  rw [Graph.empty_followedBy] at hmirrored
  rcases hload : LoadedModel.load predict init names types graph with ⟨error | found, last⟩ <;>
    rw [hload] at hmirrored
  · obtain ⟨error', -, hfailed⟩ := hmirrored
    rw [hfailed]
    constructor <;> nofun
  · have hlast : (Graph.empty graph.name).followedBy last = last := by
      rw [← Graph.name_of_load hload]
      exact last.empty_followedBy
    have hsame : LoadedModel.load predict.canonical init.canonical names types graph =
        (.ok found, last) := by
      rw [hmirrored, hlast]
      exact congrArg (fun model => (Except.ok model, last)) found.shift_zero
    rw [hsame]

/-- A net that flattens a number and has two lists without items and an empty name. -/
def scalarNet : NetDefinition where
  name := "scalar"
  operators := [⟨"Reshape", ["x"], ["y"], some "",
    ⟨[("shape", .floats [])], List.pairwise_singleton _ _⟩⟩]
  externalInputs := ["x"]
  externalOutputs := ["y"]

/-- A weight without elements. -/
def emptyWeights : NetDefinition where
  name := "weights"
  operators := [⟨"GivenTensorFill", [], ["w"], some "",
    ⟨[("shape", .ints [0]), ("values", .floats [])], List.pairwise_pair.mpr (by decide)⟩⟩]
  externalInputs := []
  externalOutputs := ["w"]

theorem scalarNet_survives_wire_form :
    scalarNet.NoEmptyTexts ∧ emptyWeights.NoEmptyTexts ∧
      scalarNet.toWire.length < UInt64.size ∧ emptyWeights.toWire.length < UInt64.size ∧
      ∃ predict init loaded next, NetDefinition.ofWire? scalarNet.toWire = some predict ∧
        NetDefinition.ofWire? emptyWeights.toWire = some init ∧
        LoadedModel.load scalarNet emptyWeights ["x"] [⟨.f32, ⟨[1]⟩⟩] (.empty "scalar") =
          (.ok loaded, next) ∧
        LoadedModel.load predict init ["x"] [⟨.f32, ⟨[1]⟩⟩] (.empty "scalar") =
          (.ok loaded, next) := by
  have hpredict : scalarNet.NoEmptyTexts := by
    unfold NetDefinition.NoEmptyTexts Operator.NoEmptyTexts
    decide
  have hinit : emptyWeights.NoEmptyTexts := by
    unfold NetDefinition.NoEmptyTexts Operator.NoEmptyTexts
    decide
  have hpredictLength : scalarNet.toWire.length < UInt64.size := by decide +kernel
  have hinitLength : emptyWeights.toWire.length < UInt64.size := by decide +kernel
  obtain ⟨predict, init, hread, hread', hsame⟩ :=
    load_survives_wire_form hpredict hinit hpredictLength hinitLength
  have hsucceeds : (match (LoadedModel.load scalarNet emptyWeights ["x"] [⟨.f32, ⟨[1]⟩⟩]
      (.empty "scalar")).1 with
    | .ok _ => true
    | .error _ => false) = true := by decide +kernel
  rcases hload : LoadedModel.load scalarNet emptyWeights ["x"] [⟨.f32, ⟨[1]⟩⟩]
    (.empty "scalar") with ⟨error | loaded, next⟩ <;> rw [hload] at hsucceeds
  · cases hsucceeds
  · exact ⟨hpredict, hinit, hpredictLength, hinitLength, predict, init, loaded, next, hread, hread',
      rfl, (hsame _ _ _ _ _).mp hload⟩

end NetImport
