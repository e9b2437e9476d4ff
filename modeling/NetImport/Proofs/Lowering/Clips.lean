import NetImport.Proofs.Kernel.Clipped
import NetImport.Proofs.Lowering.OneOutput
import NetImport.Proofs.Numeric.Doubles

/-!
# Clipping by whole numbers

Bounds that are whole numbers become 64-bit numbers on their way to the kernel, which brings
them back into the element type.  They arrive as they were given where the element type is at
most 32 bits wide, and in the widest type where 53 bits hold them.
-/

namespace NetImport

/-- What a bound comes to in an integer type: it is rounded to a 64-bit number first, and then
goes to the nearer end of the type when it lies outside. -/
def IntRange.limit (range : IntRange) (bound : Int) : Int :=
  range.clamp (Binary.nearestDouble bound)

theorem IntRange.limit_mono {range : IntRange} {i j : Int} (hle : i ≤ j) :
    range.limit i ≤ range.limit j :=
  IntRange.clamp_mono (Binary.nearestDouble_mono hle)

namespace DType

open Binary

variable {dtype : DType} {range : IntRange} {bound : Int}

theorem toInt?_ofFloat_doubleOfInt (hrange : dtype.range? = some range)
    (hsmall : bound.natAbs < 2 ^ 64) :
    dtype.toInt? (dtype.ofFloat (doubleOfInt bound)) = some (range.limit bound) := by
  rw [toInt?_ofFloat hrange, saturate_doubleOfInt hsmall, IntRange.limit]

theorem exists_toInt? (hrange : dtype.range? = some range) (element : dtype.Element) :
    ∃ i, dtype.toInt? element = some i := by
  cases dtype <;> cases hrange <;> exact ⟨_, rfl⟩

/-- Bounds that 53 bits hold, and all bounds of the narrow types, arrive as they were given. -/
theorem limit_eq_clamp (hrange : dtype.range? = some range) (hexact : dtype ≠ .i64 ∨ Fits bound) :
    range.limit bound = range.clamp bound := by
  rcases hexact with hnarrow | hfits
  · apply clamp_nearestDouble
    · cases dtype <;> cases hrange <;> first | exact absurd rfl hnarrow | decide
    · cases dtype <;> cases hrange <;> first | exact absurd rfl hnarrow | decide
  · rw [IntRange.limit, nearestDouble_of_fits hfits]

end DType

theorem natAbs_toInt_lt (i : Int64) : i.toInt.natAbs < 2 ^ 64 := by
  have hlow := i.le_toInt
  have hhigh := i.toInt_lt
  omega

namespace Lowering

open Binary

variable {op : Operator} {work : Workspace} {value : Handle} {dtype : DType} {dims : List Nat}
  {range : IntRange} {low high : Int64}

/-- A value of the last workspace is a tensor that a value of the first stands for, with each
element moved between two whole numbers. -/
structure ClipsElements (work : Workspace) (value : Handle) (dtype : DType) (dims : List Nat)
    (limits : IntRange) (bindings : Bindings) (x : Tensor) (result : Handle)
    (last : Workspace) : Prop where
  typed : last.graph.valueType result = .ok ⟨dtype, ⟨dims⟩⟩
  evaluates : work.HasValue bindings value ⟨dtype, ⟨dims⟩⟩ x →
    ∃ y, last.HasValue bindings result ⟨dtype, ⟨dims⟩⟩ y ∧
      ∀ coords, inBounds dims coords → ∃ i,
        (x.at? dtype coords).bind dtype.toInt? = some i ∧
        (y.at? dtype coords).bind dtype.toInt? = some (limits.clamp i)

theorem ClipsElements.with_env {limits : IntRange} {bindings : Bindings} {x : Tensor}
    {result : Handle} {last : Workspace}
    (hclips : ClipsElements work value dtype dims limits bindings x result last)
    (env : Environment) :
    ClipsElements work value dtype dims limits bindings x result { last with env := env } := by
  refine ⟨hclips.typed, fun hx => ?_⟩
  obtain ⟨y, hy, hcells⟩ := hclips.evaluates hx
  exact ⟨y, ⟨hy.evaluates, hy.type_eq⟩, hcells⟩

/-- A node with bounds in order stands for the clipped operand. -/
theorem succeeds_clip {name : String} {low high : Float}
    (htype : work.graph.valueType value = .ok ⟨dtype, ⟨dims⟩⟩) (hdtype : dtype ≠ .bool)
    (horder : ¬ low > high) :
    Succeeds (build op fun graph => graph.clip name value low high) work fun result last =>
      last.graph.valueType result = .ok ⟨dtype, ⟨dims⟩⟩ ∧
        ∀ bindings x, work.HasValue bindings value ⟨dtype, ⟨dims⟩⟩ x →
          last.graph.evaluate bindings result.node =
            Kernel.clip x low high (Tensor.zeros dtype ⟨dims⟩) := by
  have hoperand : Typing.operand work.graph.nodes value = .ok ⟨dtype, ⟨dims⟩⟩ := htype
  refine (@succeedsIff_build work True op _ name (.clip value low high) ⟨dtype, ⟨dims⟩⟩
    (fun _ => rfl) trivial ?_).mono ?_
  · intro types
    simp [Typing.infer, hoperand, Typing.clipType, hdtype, horder, @eq_comm _ _ types]
  · intro result last _ _ hresult
    refine ⟨hresult.1, fun bindings x hx => ?_⟩
    rw [hresult.2, Engine.applyKernel, hx.evaluates]
    rfl

theorem succeeds_clipNode {name : String}
    (htype : work.graph.valueType value = .ok ⟨dtype, ⟨dims⟩⟩) (hrange : dtype.range? = some range)
    (hle : low.toInt ≤ high.toInt) (bindings : Bindings) (x : Tensor) :
    Succeeds (build op fun graph => graph.clip name value (doubleOfInt low.toInt)
        (doubleOfInt high.toInt)) work
      (ClipsElements work value dtype dims ⟨range.limit low.toInt, range.limit high.toInt⟩
        bindings x) := by
  have hdtype : dtype ≠ .bool := by
    rintro rfl
    cases hrange
  have hlow := natAbs_toInt_lt low
  have hhigh := natAbs_toInt_lt high
  have horder := not_doubleOfInt_gt hle hlow hhigh
  refine (succeeds_clip htype hdtype horder).mono ?_
  intro result last _ _ hresult
  refine ⟨hresult.1, fun hx => ?_⟩
  obtain ⟨y, hclip, htype', hcells⟩ := Kernel.exists_clip hx.type_eq hdtype horder
  refine ⟨y, ⟨(hresult.2 bindings x hx).trans hclip, htype'⟩, fun coords hcoords => ?_⟩
  obtain ⟨element, helement, hclipped⟩ := hcells coords hcoords
  obtain ⟨i, hi⟩ := DType.exists_toInt? hrange element
  refine ⟨i, ?_, ?_⟩
  · rw [helement]
    exact hi
  · rw [hclipped]
    exact DType.toInt?_clamp (DType.toInt?_ofFloat_doubleOfInt hrange hlow)
      (DType.toInt?_ofFloat_doubleOfInt hrange hhigh) hi (IntRange.limit_mono hle)

/-- Clipping by two whole numbers in order. -/
theorem bindsIff_clip (hinput : work.HasInput op 0 value ⟨dtype, ⟨dims⟩⟩)
    (hrange : dtype.range? = some range) (hlow : op.args.get? "min" = some (.int low))
    (hhigh : op.args.get? "max" = some (.int high)) (hle : low.toInt ≤ high.toInt)
    (bindings : Bindings) (x : Tensor) :
    BindsIff op (clip op) work True
      (ClipsElements work value dtype dims ⟨range.limit low.toInt, range.limit high.toInt⟩
        bindings x) := by
  have htype : (typeOf op value).run.run work = (.ok ⟨dtype, ⟨dims⟩⟩, work) :=
    run_typeOf hinput.typed
  have hleast : op.numberArg? "min" = .ok (some (doubleOfInt low.toInt)) := by
    rw [Operator.numberArg?, hlow]
  have hgreatest : op.numberArg? "max" = .ok (some (doubleOfInt high.toInt)) := by
    rw [Operator.numberArg?, hhigh]
  unfold clip
  refine bindsIff_bind_of_run (run_input hinput) ?_
  refine bindsIff_bind_of_run htype ?_
  refine bindsIff_bind_of_run (run_ofExcept hleast) ?_
  refine bindsIff_bind_of_run (run_ofExcept hgreatest) ?_
  exact bindsIff_bind_bindOutput (succeeds_clipNode hinput.typed hrange hle bindings x)
    fun env hvalue => hvalue.with_env env

/-- Clipping by whole numbers in order always lowers, and moves each element between what the
bounds come to.  These are the bounds themselves, cut off at the ends of the element type,
unless the type is the widest and 53 bits do not hold the bound. -/
theorem clip_clamps (hkind : OperatorKind.parse? op.kind = some .clip)
    (hinput : work.HasInput op 0 value ⟨dtype, ⟨dims⟩⟩) (hrange : dtype.range? = some range)
    (hlow : op.args.get? "min" = some (.int low)) (hhigh : op.args.get? "max" = some (.int high))
    (hle : low.toInt ≤ high.toInt) :
    BindsIff op (operator op) work True (fun result last => ∀ bindings x,
        ClipsElements work value dtype dims ⟨range.limit low.toInt, range.limit high.toInt⟩
          bindings x result last) ∧
      ∀ bound : Int, dtype ≠ .i64 ∨ Fits bound → range.limit bound = range.clamp bound := by
  rw [operator_eq hkind]
  refine ⟨?_, fun bound hexact => DType.limit_eq_clamp hrange hexact⟩
  refine BindsIff.forall fun bindings => BindsIff.forall fun x => ?_
  exact bindsIff_clip hinput hrange hlow hhigh hle bindings x

/-- Clips to `2 ^ 53 + 2` and what is less. -/
def wideClip : Operator :=
  ⟨"Clip", ["x"], ["y"], none,
    ⟨[("max", .int 9007199254740994), ("min", .int (-9223372036854775808))],
      List.pairwise_pair.mpr (by decide)⟩⟩

/-- Clips to `2 ^ 53 + 1` alone, which has a significant bit too many. -/
def coarseClip : Operator :=
  ⟨"Clip", ["x"], ["y"], none,
    ⟨[("max", .int 9007199254740993), ("min", .int 9007199254740993)],
      List.pairwise_pair.mpr (by decide)⟩⟩

/-- The workspace with an operand of three whole numbers. -/
def clipOperand : Workspace where
  graph := ⟨"clipped", #[⟨"x", .variable .placeholder ⟨.i64, ⟨[3]⟩⟩, [⟨.i64, ⟨[3]⟩⟩]⟩]⟩
  env := ⟨[("x", .first 0)], List.nodup_singleton "x"⟩

def clipTensor : Tensor :=
  .ofList .i64 [-9223372036854775808, 9007199254740993, 9223372036854775807]

def clipBindings : Bindings := .ofList [("x", clipTensor)]

theorem clipOperand_hasValue :
    clipOperand.HasValue clipBindings (.first 0) ⟨.i64, ⟨[3]⟩⟩ clipTensor :=
  ⟨(Graph.evaluate_eq _ _ rfl).trans rfl, rfl⟩

theorem wideClip_clamps :
    ∃ last value y, (operator wideClip).run.run clipOperand = (.ok (), last) ∧
      last.env.get? "y" = some value ∧
      last.HasValue clipBindings value ⟨.i64, ⟨[3]⟩⟩ y ∧
      (y.at? .i64 [0]).bind DType.i64.toInt? = some (-9223372036854775808) ∧
      (y.at? .i64 [1]).bind DType.i64.toInt? = some 9007199254740993 ∧
      (y.at? .i64 [2]).bind DType.i64.toInt? = some 9007199254740994 := by
  obtain ⟨hclamps, hexact⟩ := @clip_clamps wideClip clipOperand (.first 0) .i64 [3] .signed64
    (-9223372036854775808) 9007199254740994 rfl ⟨⟨"x", rfl, rfl⟩, rfl⟩ rfl rfl rfl (by decide)
  have hleast : IntRange.signed64.limit (-9223372036854775808) = -9223372036854775808 :=
    hexact _ (.inr ⟨1, 63, by decide, rfl⟩)
  have hgreatest : IntRange.signed64.limit 9007199254740994 = 9007199254740994 :=
    hexact _ (.inr ⟨4503599627370497, 1, by decide, rfl⟩)
  obtain ⟨last, hrun⟩ := hclamps.succeeds trivial ⟨"y", rfl, rfl⟩
  obtain ⟨-, name, value, hname, hvalue, hresult⟩ := hclamps.ensures hrun
  obtain rfl : "y" = name := Option.some.inj hname
  obtain ⟨y, hy, hcells⟩ := (hresult clipBindings clipTensor).evaluates clipOperand_hasValue
  have hlimits : IntRange.mk _ _ = ⟨-9223372036854775808, 9007199254740994⟩ :=
    congrArg₂ IntRange.mk hleast hgreatest
  have hcell (place : Nat) (hplace : place < 3) (i : Int)
      (hi : (clipTensor.at? .i64 [place]).bind DType.i64.toInt? = some i) :
      (y.at? .i64 [place]).bind DType.i64.toInt? =
        some (IntRange.clamp ⟨-9223372036854775808, 9007199254740994⟩ i) := by
    obtain ⟨j, hj, hclipped⟩ := hcells [place] (by simpa [inBounds] using hplace)
    obtain rfl := Option.some.inj (hi.symm.trans hj)
    rw [← hlimits]
    exact hclipped
  refine ⟨last, value, y, hrun, hvalue, hy, ?_, ?_, ?_⟩
  · exact hcell 0 (by decide) _ rfl
  · exact hcell 1 (by decide) _ rfl
  · exact hcell 2 (by decide) _ rfl

/-- A bound that 53 bits do not hold arrives as another number, which every element becomes. -/
theorem coarseClip_misses_bound :
    ∃ last value y, (operator coarseClip).run.run clipOperand = (.ok (), last) ∧
      last.env.get? "y" = some value ∧
      last.HasValue clipBindings value ⟨.i64, ⟨[3]⟩⟩ y ∧
      (clipTensor.at? .i64 [1]).bind DType.i64.toInt? = some 9007199254740993 ∧
      (y.at? .i64 [1]).bind DType.i64.toInt? = some 9007199254740992 ∧
      IntRange.clamp ⟨IntRange.signed64.clamp 9007199254740993,
        IntRange.signed64.clamp 9007199254740993⟩ 9007199254740993 = 9007199254740993 := by
  have hclamps := @bindsIff_clip coarseClip clipOperand (.first 0) .i64 [3] .signed64
    9007199254740993 9007199254740993 ⟨⟨"x", rfl, rfl⟩, rfl⟩ rfl rfl rfl (by decide)
    clipBindings clipTensor
  have hlimit : IntRange.signed64.limit 9007199254740993 = 9007199254740992 := by decide +kernel
  obtain ⟨last, hrun⟩ := hclamps.succeeds trivial ⟨"y", rfl, rfl⟩
  obtain ⟨-, name, value, hname, hvalue, hresult⟩ := hclamps.ensures hrun
  obtain rfl : "y" = name := Option.some.inj hname
  obtain ⟨y, hy, hcells⟩ := hresult.evaluates clipOperand_hasValue
  obtain ⟨i, hi, hclipped⟩ := hcells [1] (by decide)
  obtain rfl : 9007199254740993 = i := Option.some.inj hi
  refine ⟨last, value, y, hrun, hvalue, hy, hi, hclipped.trans ?_, by decide⟩
  have hlimits : IntRange.mk _ _ = ⟨9007199254740992, 9007199254740992⟩ :=
    congrArg₂ IntRange.mk hlimit hlimit
  exact congrArg (fun limits : IntRange => some (limits.clamp 9007199254740993)) hlimits

end Lowering
end NetImport
