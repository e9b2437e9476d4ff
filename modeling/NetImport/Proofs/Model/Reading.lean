import NetImport.Lowering.Convolution
import NetImport.Lowering.Layout
import NetImport.Model.Weights
import Mathlib.Data.List.Forall2

/-!
# Operators that read alike

Two operators read alike when they differ in nothing but a name that is never used, and when
every argument that can be read off one of them reads the same off the other.  Refusals need
only be alike.  Everything that is computed from arguments alone is then the same for both.
-/

namespace NetImport

/-- Two equal values, or two refusals that are alike. -/
inductive SameOutcome {ε α : Type} (alike : ε → ε → Prop) : Except ε α → Except ε α → Prop where
  | ok (value : α) : SameOutcome alike (.ok value) (.ok value)
  | error {error error' : ε} (halike : alike error error') :
      SameOutcome alike (.error error) (.error error')

namespace SameOutcome

variable {ε α β : Type} {alike : ε → ε → Prop} {x x' : Except ε α}

theorem refl [Std.Refl alike] (x : Except ε α) : SameOutcome alike x x := by
  cases x with
  | ok value => exact .ok value
  | error error => exact .error (Std.Refl.refl error)

theorem of_eq [Std.Refl alike] (heq : x' = x) : SameOutcome alike x x' := by
  rw [heq]
  exact .refl x

theorem bind {f f' : α → Except ε β} (hx : SameOutcome alike x x')
    (hf : ∀ value, SameOutcome alike (f value) (f' value)) :
    SameOutcome alike (x >>= f) (x' >>= f') := by
  cases hx with
  | ok value => exact hf value
  | error halike => exact .error halike

theorem map {f : α → β} (hx : SameOutcome alike x x') :
    SameOutcome alike (x >>= fun value => pure (f value))
      (x' >>= fun value => pure (f value)) :=
  hx.bind fun _ => .ok _

theorem mapM {f f' : α → Except ε β} (hf : ∀ value, SameOutcome alike (f value) (f' value))
    (xs : List α) :
    SameOutcome alike (xs.mapM f) (xs.mapM f') := by
  induction xs with
  | nil => exact .ok []
  | cons x xs ih =>
      rw [List.mapM_cons, List.mapM_cons]
      exact (hf x).bind fun y => ih.map

theorem forM {f f' : α → Except ε Unit} (hf : ∀ value, SameOutcome alike (f value) (f' value))
    (xs : List α) :
    SameOutcome alike (xs.forM f) (xs.forM f') := by
  induction xs with
  | nil => exact .ok ()
  | cons x xs ih => exact (hf x).bind fun _ => ih

theorem foldlM {step : β → α → Except ε β} {related : α → α → Prop}
    (hstep : ∀ x x', related x x' → ∀ start, SameOutcome alike (step start x) (step start x'))
    {xs xs' : List α} (hxs : List.Forall₂ related xs xs') (start : β) :
    SameOutcome alike (xs.foldlM step start) (xs'.foldlM step start) := by
  induction hxs generalizing start with
  | nil => exact .ok start
  | cons hx hrest ih =>
      rw [List.foldlM_cons, List.foldlM_cons]
      exact (hstep _ _ hx start).bind ih

theorem ite {c : Prop} [Decidable c] {y y' : Except ε α} (hyes : SameOutcome alike x x')
    (hno : SameOutcome alike y y') :
    SameOutcome alike (if c then x else y) (if c then x' else y') := by
  by_cases hc : c
  · rwa [if_pos hc, if_pos hc]
  · rwa [if_neg hc, if_neg hc]

end SameOutcome

namespace Operator

/-- Two operators from which the same is read. -/
structure ReadsAlike (alike : LoadError → LoadError → Prop) (op op' : Operator) : Prop where
  label_eq : op'.label = op.label
  kind_eq : op'.kind = op.kind
  inputs_eq : op'.inputs = op.inputs
  outputs_eq : op'.outputs = op.outputs
  intArg? : ∀ name, SameOutcome alike (op.intArg? name) (op'.intArg? name)
  singleArg? : ∀ name, SameOutcome alike (op.singleArg? name) (op'.singleArg? name)
  numberArg? : ∀ name, SameOutcome alike (op.numberArg? name) (op'.numberArg? name)
  integerArg? : ∀ name, SameOutcome alike (op.integerArg? name) (op'.integerArg? name)
  textArg? : ∀ name, SameOutcome alike (op.textArg? name) (op'.textArg? name)
  intsArg? : ∀ name, SameOutcome alike (op.intsArg? name) (op'.intsArg? name)
  singlesArg? : ∀ name, SameOutcome alike (op.singlesArg? name) (op'.singlesArg? name)

namespace ReadsAlike

variable {alike : LoadError → LoadError → Prop} {op op' : Operator}

theorem refl [Std.Refl alike] (op : Operator) : op.ReadsAlike alike op where
  label_eq := rfl
  kind_eq := rfl
  inputs_eq := rfl
  outputs_eq := rfl
  intArg? _ := .refl _
  singleArg? _ := .refl _
  numberArg? _ := .refl _
  integerArg? _ := .refl _
  textArg? _ := .refl _
  intsArg? _ := .refl _
  singlesArg? _ := .refl _

theorem malformed_eq (hop : op.ReadsAlike alike op') (arg detail : String) :
    op'.malformed arg detail = op.malformed arg detail := by
  rw [malformed, malformed, hop.label_eq]

theorem shapeError_eq (hop : op.ReadsAlike alike op') (detail : String) :
    Lowering.shapeError op' detail = Lowering.shapeError op detail := by
  rw [Lowering.shapeError, Lowering.shapeError, hop.label_eq]

theorem nodeName_eq (hop : op.ReadsAlike alike op') (suffix : String) :
    Lowering.nodeName op' suffix = Lowering.nodeName op suffix := by
  rw [Lowering.nodeName, Lowering.nodeName, hop.label_eq]

theorem readExtents_eq (hop : op.ReadsAlike alike op') (input : List Nat) (position : Nat)
    (opened : Bool) (entries : List Int) :
    Lowering.readExtents op' input position opened entries =
      Lowering.readExtents op input position opened entries := by
  induction entries generalizing position opened with
  | nil => rfl
  | cons entry entries ih => simp only [Lowering.readExtents, hop.malformed_eq, ih]

/-! ## Arguments -/

theorem intArg (hop : op.ReadsAlike alike op') (name : String) (default : Int) :
    SameOutcome alike (op.intArg name default) (op'.intArg name default) :=
  (hop.intArg? name).map

theorem flagArg (hop : op.ReadsAlike alike op') (name : String) :
    SameOutcome alike (op.flagArg name) (op'.flagArg name) :=
  (hop.intArg name 0).map

theorem concatAxis (hop : op.ReadsAlike alike op') :
    SameOutcome alike (Lowering.concatAxis op) (Lowering.concatAxis op') := by
  apply (hop.intArg? "axis").bind
  intro given
  cases given with
  | some axis => exact .ok axis
  | none => exact (hop.textArg? "order").map

variable [Std.Refl alike]

theorem toNatural (hop : op.ReadsAlike alike op') (name : String) (i : Int) :
    SameOutcome alike (op.toNatural name i) (op'.toNatural name i) := by
  rw [Operator.toNatural, Operator.toNatural, hop.malformed_eq]
  exact .refl _

theorem naturalArg? (hop : op.ReadsAlike alike op') (name : String) :
    SameOutcome alike (op.naturalArg? name) (op'.naturalArg? name) := by
  apply (hop.intArg? name).bind
  intro given
  cases given with
  | none => exact .ok none
  | some i => exact (hop.toNatural name i).map

theorem naturalArg (hop : op.ReadsAlike alike op') (name : String) (default : Nat) :
    SameOutcome alike (op.naturalArg name default) (op'.naturalArg name default) :=
  (hop.naturalArg? name).map

theorem naturalsArg? (hop : op.ReadsAlike alike op') (name : String) :
    SameOutcome alike (op.naturalsArg? name) (op'.naturalsArg? name) := by
  apply (hop.intsArg? name).bind
  intro given
  cases given with
  | none => exact .ok none
  | some values => exact (SameOutcome.mapM (hop.toNatural name) values).map

/-! ## Arguments of operators -/

theorem splitInfo (hop : op.ReadsAlike alike op') (extents : List Nat) :
    SameOutcome alike (Lowering.splitInfo op extents) (Lowering.splitInfo op' extents) := by
  apply SameOutcome.of_eq
  simp only [Lowering.splitInfo, hop.shapeError_eq]

theorem resolveExtents (hop : op.ReadsAlike alike op') (input : List Nat) (spec : List Int) :
    SameOutcome alike (Lowering.resolveExtents op input spec)
      (Lowering.resolveExtents op' input spec) := by
  apply SameOutcome.of_eq
  simp only [Lowering.resolveExtents, hop.readExtents_eq, hop.shapeError_eq]

theorem storageOrder (hop : op.ReadsAlike alike op') :
    SameOutcome alike (Lowering.storageOrder op) (Lowering.storageOrder op') := by
  unfold Lowering.storageOrder
  simp only [hop.malformed_eq]
  exact (hop.textArg? "order").bind fun _ => .refl _

theorem planeArg? (hop : op.ReadsAlike alike op') (names : Lowering.PairNames) :
    SameOutcome alike (Lowering.planeArg? op names) (Lowering.planeArg? op' names) := by
  unfold Lowering.planeArg?
  simp only [hop.malformed_eq]
  apply (hop.naturalArg? names.scalar).bind
  intro side
  cases side with
  | some side => exact .ok _
  | none =>
      apply (hop.naturalsArg? names.list).bind
      intro values
      cases values with
      | some values =>
          rcases values with _ | ⟨height, _ | ⟨width, _ | ⟨third, others⟩⟩⟩ <;> exact .refl _
      | none =>
          apply (hop.naturalArg? names.vertical).bind
          intro height
          exact (hop.naturalArg? names.horizontal).bind fun _ => .refl _

theorem paddingArg (hop : op.ReadsAlike alike op') :
    SameOutcome alike (Lowering.paddingArg op) (Lowering.paddingArg op') := by
  unfold Lowering.paddingArg
  simp only [hop.malformed_eq]
  apply (hop.naturalArg? "pad").bind
  intro side
  cases side with
  | some side => exact .ok _
  | none =>
      apply (hop.naturalsArg? "pads").bind
      intro values
      cases values with
      | some values =>
          rcases values with _ | ⟨top, _ | ⟨left, _ | ⟨bottom, _ | ⟨right, _ | ⟨fifth, others⟩⟩⟩⟩⟩
            <;> exact .refl _
      | none =>
          refine (hop.naturalArg "pad_t" 0).bind fun top => ?_
          refine (hop.naturalArg "pad_l" 0).bind fun left => ?_
          refine (hop.naturalArg "pad_b" 0).bind fun bottom => ?_
          exact (hop.naturalArg "pad_r" 0).map

theorem checkDilation (hop : op.ReadsAlike alike op') :
    SameOutcome alike (Lowering.checkDilation op) (Lowering.checkDilation op') := by
  unfold Lowering.checkDilation
  simp only [hop.malformed_eq]
  have heach (arg : String) : SameOutcome alike
      (do if (← op.naturalArg arg 1) ≠ 1 then
            .error (op.malformed arg "only dilation 1 is supported"))
      (do if (← op'.naturalArg arg 1) ≠ 1 then
            .error (op.malformed arg "only dilation 1 is supported")) :=
    (hop.naturalArg arg 1).bind fun _ => .refl _
  apply (SameOutcome.forM heach _).bind
  intro checked
  exact (hop.naturalsArg? "dilations").bind fun _ => .refl _

theorem windowArgs (hop : op.ReadsAlike alike op') :
    SameOutcome alike (Lowering.windowArgs op) (Lowering.windowArgs op') := by
  refine (hop.planeArg? Lowering.kernelNames).bind fun kernel => ?_
  refine (hop.planeArg? Lowering.strideNames).bind fun stride => ?_
  refine hop.paddingArg.bind fun padding => ?_
  exact hop.checkDilation.map

/-! ## Fills -/

theorem requiredShape (hop : op.ReadsAlike alike op') :
    SameOutcome alike (Fill.requiredShape op) (Fill.requiredShape op') := by
  unfold Fill.requiredShape
  rw [hop.malformed_eq]
  exact (hop.naturalsArg? "shape").bind fun _ => .refl _

theorem listed (hop : op.ReadsAlike alike op') (dtype : DType) (data : List dtype.Element) :
    SameOutcome alike (Fill.listed op dtype data) (Fill.listed op' dtype data) := by
  unfold Fill.listed
  rw [hop.label_eq]
  exact hop.requiredShape.bind fun _ => .refl _

theorem requiredInts (hop : op.ReadsAlike alike op') (dtype : DType) :
    SameOutcome alike (Fill.requiredInts op dtype) (Fill.requiredInts op' dtype) := by
  unfold Fill.requiredInts
  rw [hop.malformed_eq]
  exact (hop.intsArg? "values").bind fun _ => .refl _

theorem exact (hop : op.ReadsAlike alike op') (arg : String) (dtype : DType) (i : Int) :
    SameOutcome alike (Fill.exact op arg dtype i) (Fill.exact op' arg dtype i) := by
  unfold Fill.exact Fill.overflow
  rw [hop.malformed_eq]
  exact .refl _

theorem listedInts (hop : op.ReadsAlike alike op') (dtype : DType) :
    SameOutcome alike (Fill.listedInts op dtype) (Fill.listedInts op' dtype) := by
  refine (hop.requiredInts dtype).bind fun values => ?_
  exact (SameOutcome.mapM (hop.exact "values" dtype) values).bind fun data =>
    hop.listed dtype data

theorem uniform (hop : op.ReadsAlike alike op') (shape : Shape) (dtype : DType) :
    SameOutcome alike (Fill.uniform op shape dtype) (Fill.uniform op' shape dtype) := by
  apply SameOutcome.ite
  · exact (hop.numberArg? "value").map
  · refine (hop.integerArg? "value").bind fun value => ?_
    exact (hop.exact "value" dtype _).map

theorem fillTensor (hop : op.ReadsAlike alike op') :
    SameOutcome alike (Fill.tensor op) (Fill.tensor op') := by
  unfold Fill.tensor
  simp only [hop.malformed_eq, hop.kind_eq]
  split
  · refine (hop.singlesArg? "values").bind fun values => ?_
    cases values with
    | none => exact .refl _
    | some values => exact hop.listed .f32 values
  · exact hop.listedInts .i32
  · exact hop.listedInts .i64
  · refine (hop.requiredInts .bool).bind fun values => ?_
    exact hop.listed .bool _
  · refine (hop.naturalsArg? "shape").bind fun dims => ?_
    refine (hop.intArg "dtype" 1).bind fun code => ?_
    split
    · exact hop.uniform _ _
    · exact .refl _
  · exact .refl _

theorem fillTarget (hop : op.ReadsAlike alike op') :
    SameOutcome alike (Fill.target op) (Fill.target op') := by
  unfold Fill.target
  simp only [hop.malformed_eq, hop.outputs_eq]
  exact .refl _

theorem addFill (hop : op.ReadsAlike alike op') (table : WeightTable) :
    SameOutcome alike (table.addFill op) (table.addFill op') := by
  refine hop.fillTensor.bind fun tensor => ?_
  exact hop.fillTarget.bind fun name => .refl _

end ReadsAlike
end Operator

/-- Nets of operators that read alike fill the same weights. -/
theorem WeightTable.ofNet_alike {alike : LoadError → LoadError → Prop} [Std.Refl alike]
    {init init' : NetDefinition}
    (hops : List.Forall₂ (Operator.ReadsAlike alike) init.operators init'.operators) :
    SameOutcome alike (ofNet init) (ofNet init') :=
  SameOutcome.foldlM (fun _ _ hop => hop.addFill) hops empty

end NetImport
