import NetImport.Lowering.Convolution
import NetImport.Lowering.Layout
import NetImport.Proofs.Graph.Refusals

/-!
# Refusals of argument readers

A reader refuses an argument that is malformed.  What is read for one operator does not
depend on the graph, so no reader misses a value, and none of them leaves the domain of
what it looks into.
-/

namespace NetImport

/-- The text of an interpolated text is the text itself. -/
theorem toString_string (text : String) : toString text = text :=
  rfl

/-- A detail that says something else than that a value is unknown. -/
def OtherDetail (detail : String) : Prop := detail.toList.head? ≠ some 'u'

namespace GraphError

theorem otherDetail_message {error : GraphError} (hfinds : error.FindsValues) :
    OtherDetail error.message := by
  unfold OtherDetail message
  cases error with
  | unknownValue value => exact (hfinds value rfl).elim
  | shapeMismatch op detail => simp [toString_string]
  | typeMismatch op expected actual => simp [toString_string]
  | invalidArgument op detail => simp [toString_string]
  | duplicateName name => simp [toString_string]
  | verification node detail => simp [toString_string]

theorem not_otherDetail_message (value : Handle) :
    ¬OtherDetail (message (.unknownValue value)) := by
  unfold OtherDetail message
  simp [toString_string]

end GraphError

namespace LoadError

/-- A refusal that neither misses a value of the graph nor stands for a look outside of the
bounds of a list. -/
def Proper : LoadError → Prop
  | .shapeMismatch _ detail => OtherDetail detail
  | .outOfDomain _ => False
  | _ => True

/-- A missing value is not reported in any other words. -/
theorem Proper.ne_unknownValue {error : LoadError} (hproper : error.Proper) (op : String)
    (value : Handle) :
    error ≠ .ofGraphError op (.unknownValue value) := by
  have hmissing : ofGraphError op (.unknownValue value) =
      .shapeMismatch op (GraphError.message (.unknownValue value)) := rfl
  intro hsame
  rw [hsame, hmissing] at hproper
  exact GraphError.not_otherDetail_message value hproper

theorem Proper.ne_outOfDomain {error : LoadError} (hproper : error.Proper) (op : String) :
    error ≠ .outOfDomain op := by
  rintro rfl
  exact hproper

theorem proper_ofGraphError (op : String) {error : GraphError} (hfinds : error.FindsValues) :
    (ofGraphError op error).Proper := by
  unfold ofGraphError
  split
  · trivial
  · exact GraphError.otherDetail_message hfinds

theorem proper_ofVariableError (op : String) {error : GraphError} (hfinds : error.FindsValues) :
    (ofVariableError op error).Proper := by
  unfold ofVariableError
  split
  · trivial
  · exact proper_ofGraphError op hfinds

end LoadError

namespace LoadError

/-- A refusal for another cause than a name that is taken. -/
def NoConflict : LoadError → Prop
  | .nameConflict _ => False
  | _ => True

/-- A refusal of an argument, or of what is computed from arguments. -/
def OfReader : LoadError → Prop
  | .malformedArgument .. => True
  | .shapeMismatch _ detail => OtherDetail detail
  | _ => False

variable {error : LoadError}

theorem OfReader.proper (hreader : error.OfReader) : error.Proper := by
  cases error <;> first | exact hreader.elim | exact hreader

theorem OfReader.noConflict (hreader : error.OfReader) : error.NoConflict := by
  cases error <;> first | exact hreader.elim | trivial

theorem noConflict_ofGraphError (op : String) (error : GraphError) :
    (ofGraphError op error).NoConflict := by
  unfold ofGraphError
  split <;> trivial

end LoadError

/-- A reader that refuses for what it reads. -/
abbrev ReadsProperly {α : Type} (result : Except LoadError α) : Prop :=
  RefusesOnly LoadError.OfReader result

namespace Operator

variable (op : Operator) (name : String)

theorem intArg?_properly : ReadsProperly (op.intArg? name) := by
  unfold intArg?
  split
  · exact refusesOnly_ok _
  · exact refusesOnly_ok _
  · exact refusesOnly_error trivial

theorem intArg_properly (default : Int) : ReadsProperly (op.intArg name default) :=
  refusesOnly_map (op.intArg?_properly name) _

theorem toNatural_properly (i : Int) : ReadsProperly (op.toNatural name i) :=
  refusesOnly_ite (fun _ => refusesOnly_ok _) fun _ => refusesOnly_error trivial

theorem naturalArg?_properly : ReadsProperly (op.naturalArg? name) := by
  refine refusesOnly_bind (op.intArg?_properly name) fun found _ => ?_
  cases found with
  | none => exact refusesOnly_ok none
  | some i => exact refusesOnly_map (op.toNatural_properly name i) _

theorem naturalArg_properly (default : Nat) : ReadsProperly (op.naturalArg name default) :=
  refusesOnly_map (op.naturalArg?_properly name) _

theorem flagArg_properly : ReadsProperly (op.flagArg name) :=
  refusesOnly_map (op.intArg_properly name 0) _

theorem singleArg?_properly : ReadsProperly (op.singleArg? name) := by
  unfold singleArg?
  split
  · exact refusesOnly_ok _
  · exact refusesOnly_ok _
  · exact refusesOnly_ok _
  · exact refusesOnly_error trivial

theorem numberArg?_properly : ReadsProperly (op.numberArg? name) := by
  unfold numberArg?
  split
  · exact refusesOnly_ok _
  · exact refusesOnly_ok _
  · exact refusesOnly_ok _
  · exact refusesOnly_error trivial

theorem textArg?_properly : ReadsProperly (op.textArg? name) := by
  unfold textArg?
  split
  · exact refusesOnly_ok _
  · exact refusesOnly_ok _
  · exact refusesOnly_error trivial

theorem intsArg?_properly : ReadsProperly (op.intsArg? name) := by
  unfold intsArg?
  split
  · exact refusesOnly_ok _
  · exact refusesOnly_ok _
  · exact refusesOnly_ok _
  · exact refusesOnly_error trivial

theorem integerArg?_properly : ReadsProperly (op.integerArg? name) := by
  unfold integerArg?
  split
  · exact refusesOnly_ok _
  · exact refusesOnly_ok _
  · split
    · exact refusesOnly_ok _
    · exact refusesOnly_error trivial
  · exact refusesOnly_error trivial

theorem singlesArg?_properly : ReadsProperly (op.singlesArg? name) := by
  unfold singlesArg?
  split
  · exact refusesOnly_ok _
  · exact refusesOnly_ok _
  · exact refusesOnly_ok _
  · exact refusesOnly_error trivial

theorem naturalsArg?_properly : ReadsProperly (op.naturalsArg? name) := by
  refine refusesOnly_bind (op.intsArg?_properly name) fun found _ => ?_
  cases found with
  | none => exact refusesOnly_ok none
  | some values =>
      exact refusesOnly_map (refusesOnly_mapM fun i _ => op.toNatural_properly name i) _

end Operator

namespace Lowering

variable (op : Operator)

/-! ## Windows -/

theorem storageOrder_properly : ReadsProperly (storageOrder op) := by
  refine refusesOnly_bind (op.textArg?_properly "order") fun found _ => ?_
  split
  · exact refusesOnly_ok _
  · exact refusesOnly_ok _
  · exact refusesOnly_ok _
  · exact refusesOnly_error trivial

theorem planeArg?_properly (names : PairNames) : ReadsProperly (planeArg? op names) := by
  refine refusesOnly_bind (op.naturalArg?_properly _) fun side _ => ?_
  cases side with
  | some side => exact refusesOnly_ok _
  | none =>
      refine refusesOnly_bind (op.naturalsArg?_properly _) fun values _ => ?_
      split
      · exact refusesOnly_ok _
      · exact refusesOnly_error trivial
      · refine refusesOnly_bind (op.naturalArg?_properly _) fun height _ => ?_
        refine refusesOnly_bind (op.naturalArg?_properly _) fun width _ => ?_
        split
        · exact refusesOnly_ok _
        · exact refusesOnly_ok _
        · exact refusesOnly_error trivial

theorem paddingArg_properly : ReadsProperly (paddingArg op) := by
  refine refusesOnly_bind (op.naturalArg?_properly _) fun side _ => ?_
  cases side with
  | some side => exact refusesOnly_ok _
  | none =>
      refine refusesOnly_bind (op.naturalsArg?_properly _) fun values _ => ?_
      split
      · exact refusesOnly_ok _
      · exact refusesOnly_error trivial
      · refine refusesOnly_bind (op.naturalArg_properly _ 0) fun top _ => ?_
        refine refusesOnly_bind (op.naturalArg_properly _ 0) fun left _ => ?_
        refine refusesOnly_bind (op.naturalArg_properly _ 0) fun bottom _ => ?_
        exact refusesOnly_map (op.naturalArg_properly _ 0) _

theorem checkDilation_properly : ReadsProperly (checkDilation op) := by
  refine refusesOnly_bind (refusesOnly_forM fun arg _ => ?_) fun _ _ => ?_
  · refine refusesOnly_bind (op.naturalArg_properly arg 1) fun dilation _ => ?_
    exact refusesOnly_ite (fun _ => refusesOnly_error trivial) fun _ => refusesOnly_ok _
  · refine refusesOnly_bind (op.naturalsArg?_properly _) fun dilations _ => ?_
    cases dilations with
    | none => exact refusesOnly_ok _
    | some dilations =>
        exact refusesOnly_ite (fun _ => refusesOnly_error trivial) fun _ => refusesOnly_ok _

theorem windowArgs_properly : ReadsProperly (windowArgs op) := by
  refine refusesOnly_bind (planeArg?_properly op _) fun kernel _ => ?_
  refine refusesOnly_bind (planeArg?_properly op _) fun stride _ => ?_
  refine refusesOnly_bind (paddingArg_properly op) fun padding _ => ?_
  exact refusesOnly_map (checkDilation_properly op) _

/-! ## Extents -/

theorem concatAxis_properly : ReadsProperly (concatAxis op) := by
  refine refusesOnly_bind (op.intArg?_properly "axis") fun found _ => ?_
  cases found with
  | some axis => exact refusesOnly_ok _
  | none => exact refusesOnly_map (op.textArg?_properly "order") _

theorem splitInfo_properly (extents : List Nat) : ReadsProperly (splitInfo op extents) := by
  refine refusesOnly_map (refusesOnly_mapM fun extent _ => ?_) _
  split
  · exact refusesOnly_ok _
  · refine refusesOnly_error ?_
    simp [shapeError, LoadError.OfReader, OtherDetail, toString_string]

theorem readExtents_properly (input : List Nat) (position : Nat) (open_ : Bool)
    (entries : List Int) :
    ReadsProperly (readExtents op input position open_ entries) := by
  induction entries generalizing position open_ with
  | nil => exact refusesOnly_ok []
  | cons entry entries ih =>
      unfold readExtents
      refine refusesOnly_ite (fun _ => ?_) fun _ => refusesOnly_ite (fun _ => ?_) fun _ => ?_
      · extract_lets rest
        have hrest (checked : Unit) : ReadsProperly (rest checked) :=
          refusesOnly_map (ih _ _) _
        refine refusesOnly_ite (fun _ => ?_) fun _ => hrest ()
        exact refusesOnly_bind (refusesOnly_error trivial) fun checked _ => hrest checked
      · split
        · exact refusesOnly_map (ih _ _) _
        · exact refusesOnly_error trivial
      · exact refusesOnly_ite (fun _ => refusesOnly_error trivial) fun _ =>
          refusesOnly_map (ih _ _) _

theorem resolveExtents_properly (input : List Nat) (spec : List Int) :
    ReadsProperly (resolveExtents op input spec) := by
  refine refusesOnly_bind (readExtents_properly op input 0 false spec) fun entries _ => ?_
  extract_lets total known left dims last rest
  have hlast (checked : Unit) : ReadsProperly (last checked) := refusesOnly_ok _
  have hrest (checked : Unit) : ReadsProperly (rest checked) := by
    refine refusesOnly_ite (fun _ => ?_) fun _ => hlast ()
    refine refusesOnly_bind (refusesOnly_error ?_) fun checked _ => hlast checked
    simp [shapeError, LoadError.OfReader, OtherDetail, toString_string]
  refine refusesOnly_ite (fun _ => ?_) fun _ => hrest ()
  refine refusesOnly_bind (refusesOnly_error ?_) fun checked _ => hrest checked
  simp [shapeError, LoadError.OfReader, OtherDetail, toString_string]

end Lowering
end NetImport
