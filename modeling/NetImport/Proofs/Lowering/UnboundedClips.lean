import NetImport.Proofs.Lowering.Clips
import NetImport.Proofs.Numeric.Singles

/-!
# Clipping without bounds

Bounds that are not given are the ends of the finite range of the element type.  On the way
through 64-bit numbers the greatest of the 64-bit integers is rounded up, and the kernel cuts it
off again.  So clipping keeps every element but the infinities, and what is no number stays so.
-/

namespace NetImport

namespace DType

open Binary

variable {dtype : DType} {range : IntRange}

/-- Whether an element is an infinity, which no whole number is. -/
def isInfinite : (dtype : DType) → dtype.Element → Bool
  | .f32, x => x.isInf
  | _, _ => false

theorem lowest_eq (hrange : dtype.range? = some range) :
    dtype.lowest = doubleOfInt range.lowest := by
  cases dtype <;> cases hrange <;> rfl

theorem highest_eq (hrange : dtype.range? = some range) :
    dtype.highest = doubleOfInt range.highest := by
  cases dtype <;> cases hrange <;> rfl

/-- The ends of an integer type arrive as they were, although a 64-bit number does not hold the
greatest 64-bit integer. -/
theorem limit_ends (hrange : dtype.range? = some range) :
    range.limit range.lowest = range.lowest ∧ range.limit range.highest = range.highest := by
  cases dtype <;> cases hrange <;> decide +kernel

theorem range_ends (hrange : dtype.range? = some range) :
    range.lowest ≤ range.highest ∧ range.lowest.natAbs < 2 ^ 64 ∧
      range.highest.natAbs < 2 ^ 64 := by
  cases dtype <;> cases hrange <;> decide

theorem not_lowest_gt_highest (dtype : DType) : ¬ dtype.lowest > dtype.highest := by
  cases dtype <;> decide +kernel

theorem clamp_eq_self {low high x : dtype.Element} (hlow : ¬ dtype.less x low)
    (hhigh : ¬ dtype.less high x) : dtype.clamp low high x = x := by
  rw [clamp, if_neg hlow, if_neg hhigh]

/-- No element of an integer type lies beyond its ends. -/
theorem clamp_ends_of_integer (hrange : dtype.range? = some range) (x : dtype.Element) :
    dtype.clamp (dtype.ofFloat dtype.lowest) (dtype.ofFloat dtype.highest) x = x := by
  obtain ⟨i, hi⟩ := exists_toInt? hrange x
  obtain ⟨-, hlow, hhigh⟩ := range_ends hrange
  obtain ⟨hleast, hgreatest⟩ := limit_ends hrange
  have hinside := IntRange.mem_iff.mp (mem_of_toInt? hrange hi)
  have hlowest := toInt?_ofFloat_doubleOfInt hrange hlow
  have hhighest := toInt?_ofFloat_doubleOfInt hrange hhigh
  rw [hleast, ← lowest_eq hrange] at hlowest
  rw [hgreatest, ← highest_eq hrange] at hhighest
  apply clamp_eq_self
  · exact mt (less_iff hi hlowest).mp (Int.not_lt.mpr hinside.1)
  · exact mt (less_iff hhighest hi).mp (Int.not_lt.mpr hinside.2)

theorem less_single_iff {x y : Float32} : DType.f32.less x y = true ↔ x < y :=
  decide_eq_true_iff

/-- The ends of the 32-bit numbers are finite, and so is all that lies between them. -/
theorem isInf_clamp_ends (x : Float32) :
    Float32.isInf (DType.f32.clamp (narrow (-greatestSingle)) (narrow greatestSingle) x) =
      false := by
  have hends : (narrow (-greatestSingle)).isInf = false ∧ (narrow greatestSingle).isInf = false :=
    by decide +kernel
  unfold clamp
  split
  · exact hends.1
  · next hlow =>
      split
      · exact hends.2
      · next hhigh =>
          rw [less_single_iff] at hlow hhigh
          rw [← Bool.not_eq_true, isInf_iff_beyond]
          exact not_or.mpr ⟨hlow, hhigh⟩

theorem clamp_ends_single (x : Float32) :
    DType.f32.clamp (narrow (-greatestSingle)) (narrow greatestSingle) x = x ↔
      x.isInf = false := by
  constructor
  · intro hsame
    rw [← hsame]
    exact isInf_clamp_ends x
  · intro hfinite
    rw [← Bool.not_eq_true, isInf_iff_beyond, not_or] at hfinite
    exact clamp_eq_self (mt less_single_iff.mp hfinite.1) (mt less_single_iff.mp hfinite.2)

/-- Clipping an element by the ends of its type changes nothing but an infinity. -/
theorem clamp_ends_eq_self_iff (hdtype : dtype ≠ .bool) (x : dtype.Element) :
    dtype.clamp (dtype.ofFloat dtype.lowest) (dtype.ofFloat dtype.highest) x = x ↔
      dtype.isInfinite x = false := by
  cases dtype with
  | f32 => exact clamp_ends_single x
  | bool => exact absurd rfl hdtype
  | i8 => exact iff_of_true (clamp_ends_of_integer rfl x) rfl
  | u8 => exact iff_of_true (clamp_ends_of_integer rfl x) rfl
  | i32 => exact iff_of_true (clamp_ends_of_integer rfl x) rfl
  | i64 => exact iff_of_true (clamp_ends_of_integer rfl x) rfl

end DType

namespace Tensor

def HasInfinity (tensor : Tensor) : Prop :=
  ∃ element ∈ tensor.data, tensor.dtype.isInfinite element

/-- A tensor clipped by the ends of its element type is the same tensor, unless it holds an
infinity. -/
theorem clipped_ends_eq_self_iff {tensor : Tensor} (hdtype : tensor.dtype ≠ .bool) :
    tensor.clipped tensor.dtype.lowest tensor.dtype.highest = tensor ↔ ¬ tensor.HasInfinity := by
  obtain ⟨dtype, shape, data, hsize⟩ := tensor
  have hdata : data.map (dtype.clamp (dtype.ofFloat dtype.lowest) (dtype.ofFloat dtype.highest)) =
      data.map id ↔ ∀ element ∈ data, dtype.isInfinite element = false := by
    rw [Array.map_inj_left]
    exact forall₂_congr fun element _ => DType.clamp_ends_eq_self_iff hdtype element
  rw [Array.map_id] at hdata
  simp [clipped, HasInfinity, hdata]

end Tensor

namespace Lowering

variable {op : Operator} {work : Workspace} {value : Handle} {dtype : DType} {dims : List Nat}

/-- Clipping without bounds always lowers, and gives the tensors that it is given, as long as
they hold no infinity. -/
theorem unboundedClip_keeps (hkind : OperatorKind.parse? op.kind = some .clip)
    (hinput : work.HasInput op 0 value ⟨dtype, ⟨dims⟩⟩) (hdtype : dtype ≠ .bool)
    (hlow : op.args.get? "min" = none) (hhigh : op.args.get? "max" = none) :
    BindsIff op (operator op) work True fun result last =>
      last.graph.valueType result = .ok ⟨dtype, ⟨dims⟩⟩ ∧
        ∀ bindings x, work.HasValue bindings value ⟨dtype, ⟨dims⟩⟩ x →
          (last.HasValue bindings result ⟨dtype, ⟨dims⟩⟩ x ↔ ¬ x.HasInfinity) := by
  have htype : (typeOf op value).run.run work = (.ok ⟨dtype, ⟨dims⟩⟩, work) :=
    run_typeOf hinput.typed
  have hleast : op.numberArg? "min" = .ok none := by
    rw [Operator.numberArg?, hlow]
  have hgreatest : op.numberArg? "max" = .ok none := by
    rw [Operator.numberArg?, hhigh]
  have horder := dtype.not_lowest_gt_highest
  rw [operator_eq hkind]
  change BindsIff op (clip op) work True _
  unfold clip
  refine bindsIff_bind_of_run (run_input hinput) ?_
  refine bindsIff_bind_of_run htype ?_
  refine bindsIff_bind_of_run (run_ofExcept hleast) ?_
  refine bindsIff_bind_of_run (run_ofExcept hgreatest) ?_
  refine bindsIff_bind_bindOutput ((succeeds_clip hinput.typed hdtype horder).mono ?_) ?_
  · intro result last _ _ hresult
    refine ⟨hresult.1, fun bindings x hx => ?_⟩
    obtain rfl : x.dtype = dtype := congrArg TensorType.dtype hx.type_eq
    have hevaluates := hresult.2 bindings x hx
    rw [Kernel.clip_eq_ok hx.type_eq hdtype horder] at hevaluates
    rw [← Tensor.clipped_ends_eq_self_iff hdtype]
    constructor
    · intro hsame
      exact Except.ok.inj (hevaluates.symm.trans hsame.evaluates)
    · intro hsame
      rw [hsame] at hevaluates
      exact ⟨hevaluates, hx.type_eq⟩
  · intro result next env hresult
    refine ⟨hresult.1, fun bindings x hx => ?_⟩
    exact (Workspace.hasValue_with_env env).trans (hresult.2 bindings x hx)

/-- Clips without bounds. -/
def plainClip : Operator := ⟨"Clip", ["x"], ["y"], none, .empty⟩

/-- The workspace with an operand of four 32-bit numbers. -/
def singleOperand : Workspace where
  graph := ⟨"clipped", #[⟨"x", .variable .placeholder ⟨.f32, ⟨[4]⟩⟩, [⟨.f32, ⟨[4]⟩⟩]⟩]⟩
  env := ⟨[("x", .first 0)], List.nodup_singleton "x"⟩

/-- No number, a zero with a sign, the least positive number and the greatest one. -/
def singleTensor : Tensor :=
  .ofList .f32 [.ofBits 0x7FC00000, .ofBits 0x80000000, .ofBits 1, .ofBits 0x7F7FFFFF]

theorem singleOperand_hasValue :
    singleOperand.HasValue (.ofList [("x", singleTensor)]) (.first 0) ⟨.f32, ⟨[4]⟩⟩
      singleTensor :=
  ⟨(Graph.evaluate_eq _ _ rfl).trans rfl, rfl⟩

theorem plainClip_keeps_extremes :
    (∃ last value, (operator plainClip).run.run clipOperand = (.ok (), last) ∧
      last.env.get? "y" = some value ∧
      last.HasValue clipBindings value ⟨.i64, ⟨[3]⟩⟩ clipTensor) ∧
    ∃ last value, (operator plainClip).run.run singleOperand = (.ok (), last) ∧
      last.env.get? "y" = some value ∧
      last.HasValue (.ofList [("x", singleTensor)]) value ⟨.f32, ⟨[4]⟩⟩ singleTensor := by
  constructor
  · have hkeeps := @unboundedClip_keeps plainClip clipOperand (.first 0) .i64 [3] rfl
      ⟨⟨"x", rfl, rfl⟩, rfl⟩ (by decide) rfl rfl
    obtain ⟨last, value, hrun, hvalue, -, hresult⟩ := hkeeps.exists_bound trivial rfl rfl
    refine ⟨last, value, hrun, hvalue, (hresult _ _ clipOperand_hasValue).mpr ?_⟩
    rintro ⟨element, -, hinfinite⟩
    cases hinfinite
  · have hkeeps := @unboundedClip_keeps plainClip singleOperand (.first 0) .f32 [4] rfl
      ⟨⟨"x", rfl, rfl⟩, rfl⟩ (by decide) rfl rfl
    obtain ⟨last, value, hrun, hvalue, -, hresult⟩ := hkeeps.exists_bound trivial rfl rfl
    refine ⟨last, value, hrun, hvalue, (hresult _ _ singleOperand_hasValue).mpr ?_⟩
    unfold Tensor.HasInfinity
    decide +kernel

end Lowering
end NetImport
