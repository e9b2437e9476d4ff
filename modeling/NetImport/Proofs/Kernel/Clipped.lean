import NetImport.Proofs.Kernel.Elementwise
import NetImport.Proofs.Numeric.Rounding
import NetImport.Proofs.Tensor.Elements
import NetImport.Proofs.Tensor.Integers

/-!
# Clipped elements

An integer tensor is clipped by whole numbers: the bounds are cut off at the ends of the
element type, and every element is moved to the nearest number between them.
-/

namespace NetImport

namespace Binary.Datum

/-- A datum goes to a number of the range. -/
theorem saturate_mem {range : IntRange} (hzero : 0 ∈ range) (datum : Datum) :
    datum.saturate range ∈ range := by
  obtain ⟨hlow, hhigh⟩ := IntRange.mem_iff.mp hzero
  cases datum with
  | finite negative significand exponent =>
      exact IntRange.clamp_mem (Int.le_trans hlow hhigh) _
  | infinite negative =>
      rw [saturate, IntRange.mem_iff]
      split <;> omega
  | nan => exact hzero

end Binary.Datum

namespace DType

open Binary

variable {dtype : DType} {range : IntRange}

theorem zero_mem_of_range? (hrange : dtype.range? = some range) : 0 ∈ range := by
  cases dtype <;> cases hrange <;> decide

theorem ofInt?_saturate (hrange : dtype.range? = some range) (x : Float) :
    dtype.ofInt? ((ofDouble x).saturate range) = some (dtype.ofFloat x) := by
  have hmem := (ofDouble x).saturate_mem (zero_mem_of_range? hrange)
  cases dtype <;> cases hrange <;> exact if_pos hmem

theorem toInt?_ofFloat (hrange : dtype.range? = some range) (x : Float) :
    dtype.toInt? (dtype.ofFloat x) = some ((ofDouble x).saturate range) :=
  toInt?_of_ofInt? (ofInt?_saturate hrange x)

/-- Elements of an integer type are in the order of their values. -/
theorem less_iff {x y : dtype.Element} {i j : Int} (hx : dtype.toInt? x = some i)
    (hy : dtype.toInt? y = some j) : dtype.less x y = true ↔ i < j := by
  cases dtype with
  | f32 => cases hx
  | bool => cases hx
  | i8 =>
      obtain rfl := Option.some.inj hx
      obtain rfl := Option.some.inj hy
      exact decide_eq_true_iff.trans Int8.lt_iff_toInt_lt
  | u8 =>
      obtain rfl := Option.some.inj hx
      obtain rfl := Option.some.inj hy
      exact decide_eq_true_iff.trans (UInt8.lt_iff_toNat_lt.trans Int.ofNat_lt.symm)
  | i32 =>
      obtain rfl := Option.some.inj hx
      obtain rfl := Option.some.inj hy
      exact decide_eq_true_iff.trans Int32.lt_iff_toInt_lt
  | i64 =>
      obtain rfl := Option.some.inj hx
      obtain rfl := Option.some.inj hy
      exact decide_eq_true_iff.trans Int64.lt_iff_toInt_lt

theorem toInt?_clamp {low high x : dtype.Element} {a b i : Int} (hlow : dtype.toInt? low = some a)
    (hhigh : dtype.toInt? high = some b) (hx : dtype.toInt? x = some i) (hle : a ≤ b) :
    dtype.toInt? (dtype.clamp low high x) = some (IntRange.clamp ⟨a, b⟩ i) := by
  have hvalue : IntRange.clamp ⟨a, b⟩ i = max a (min b i) := rfl
  rw [clamp, hvalue]
  by_cases hbelow : dtype.less x low
  · have horder := (less_iff hx hlow).mp hbelow
    rw [if_pos hbelow, hlow]
    congr 1
    omega
  · have horder := mt (less_iff hx hlow).mpr hbelow
    rw [if_neg hbelow]
    by_cases habove : dtype.less high x
    · have horder' := (less_iff hhigh hx).mp habove
      rw [if_pos habove, hhigh]
      congr 1
      omega
    · have horder' := mt (less_iff hhigh hx).mpr habove
      rw [if_neg habove, hx]
      congr 1
      omega

end DType

/-- The tensor with every element clipped by two numbers, which become elements first. -/
def Tensor.clipped (tensor : Tensor) (low high : Float) : Tensor where
  dtype := tensor.dtype
  shape := tensor.shape
  data := tensor.data.map
    (tensor.dtype.clamp (tensor.dtype.ofFloat low) (tensor.dtype.ofFloat high))
  size_eq := Array.size_map.trans tensor.size_eq

namespace Kernel

variable {dtype : DType} {dims : List Nat} {low high : Float} {x : Tensor}

theorem clip_eq_ok (hx : x.type = ⟨dtype, ⟨dims⟩⟩) (hdtype : dtype ≠ .bool)
    (horder : ¬ low > high) :
    clip x low high (Tensor.zeros dtype ⟨dims⟩) = .ok (x.clipped low high) := by
  obtain ⟨rfl, hshape⟩ := TensorType.mk.inj hx
  have hmade : Tensor.ofArray x.dtype x.shape (x.data.map _) = .ok (x.clipped low high) :=
    dif_pos (x.clipped low high).size_eq
  simpa [clip, requireSameDType, requireShape, Tensor.zeros, Tensor.constant, horder, hdtype,
    ← hshape] using hmade

/-- Clipping changes every element by itself. -/
theorem exists_clip (hx : x.type = ⟨dtype, ⟨dims⟩⟩) (hdtype : dtype ≠ .bool)
    (horder : ¬ low > high) :
    ∃ result, clip x low high (Tensor.zeros dtype ⟨dims⟩) = .ok result ∧
      result.type = ⟨dtype, ⟨dims⟩⟩ ∧
      ∀ coords, inBounds dims coords → ∃ element, x.at? dtype coords = some element ∧
        result.at? dtype coords =
          some (dtype.clamp (dtype.ofFloat low) (dtype.ofFloat high) element) := by
  refine ⟨x.clipped low high, clip_eq_ok hx hdtype horder, hx, fun coords hcoords => ?_⟩
  obtain ⟨element, helement⟩ := Tensor.exists_at? hx hcoords
  obtain ⟨own, shape, data, hsize⟩ := x
  obtain ⟨rfl, rfl⟩ := TensorType.mk.inj hx
  refine ⟨element, helement, ?_⟩
  rw [Tensor.clipped, Tensor.at?_mk hcoords, Array.getElem?_map, Tensor.getElem?_of_at? helement]
  rfl

end Kernel
end NetImport
