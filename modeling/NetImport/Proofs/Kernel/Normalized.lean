import NetImport.Proofs.Kernel.Reduction
import NetImport.Proofs.Tensor.Stacks

/-!
# Normalized rows

Each element of a row becomes its exponential, shifted by the greatest element of the row,
over the sum of all of these.  The softmax of a matrix does this to every row by itself.
-/

namespace NetImport
namespace Softmax

/-- The greatest element of a row, which is minus infinity for an empty one. -/
def top (row : List Float32) : Float32 := row.foldl greater minusInfinity

def power (row : List Float32) (x : Float32) : Float32 := (x - top row).exp

/-- The exponentials of a row, added up in their order. -/
def powerSum (row : List Float32) : Float32 := (row.map (power row)).foldl (· + ·) 0.0

/-- An element of a row, normalized when the sum of the exponentials is positive. -/
def normalized (row : List Float32) (x : Float32) : Float32 :=
  if powerSum row > 0.0 then power row x * (1.0 / powerSum row) else power row x

theorem normalize_eq_map (row : List Float32) : normalize row = row.map (normalized row) := by
  have hpowers : (row.map fun x => (x - row.foldl greater minusInfinity).exp) =
      row.map (power row) := rfl
  have hsum : (row.map (power row)).foldl (· + ·) 0.0 = powerSum row := rfl
  unfold normalize
  dsimp only
  rw [hpowers, hsum]
  by_cases hpositive : powerSum row > 0.0
  · rw [if_pos hpositive, List.map_map]
    refine List.map_congr_left fun x _ => ?_
    rw [normalized, if_pos hpositive]
    rfl
  · rw [if_neg hpositive]
    refine List.map_congr_left fun x _ => ?_
    rw [normalized, if_neg hpositive]

end Softmax

namespace MatrixStack

/-- The row of a matrix. -/
def row (stack : MatrixStack) (q i : Nat) : List Float32 :=
  (List.range stack.columns).map (stack.element q i)

/-- Every row normalized by itself. -/
def normalized (stack : MatrixStack) : MatrixStack where
  count := stack.count
  rows := stack.rows
  columns := stack.columns
  element := fun q i j => Softmax.normalized (stack.row q i) (stack.element q i j)

end MatrixStack

namespace Kernel

variable {rows columns : Nat} {element : Nat → Nat → Nat → Float32}

/-- The rows that the buffer of a matrix is cut into. -/
theorem rowsOf_eq_map_row {data : Array Float32}
    (hcells : ∀ i j, i < rows → j < columns → data[i * columns + j]? = some (element 0 i j)) :
    Softmax.rowsOf columns rows data.toList =
      (List.range rows).map (MatrixStack.row ⟨1, rows, columns, element⟩ 0) := by
  rw [Softmax.rowsOf_eq]
  refine List.map_congr_left fun i hi => ?_
  have hrow : i < rows := List.mem_range.mp hi
  apply List.ext_getElem?
  intro j
  unfold MatrixStack.row
  by_cases hj : j < columns
  · rw [List.getElem?_take_of_lt hj, List.getElem?_drop, Array.getElem?_toList,
      hcells i j hrow hj, List.getElem?_map, List.getElem?_range hj]
    rfl
  · rw [List.getElem?_eq_none (by simp; omega), List.getElem?_eq_none (by simpa using hj)]

theorem softmax_stacks {input : Tensor}
    (hinput : input.Stacks [rows, columns] ⟨1, rows, columns, element⟩) :
    ∃ result, softmax input (Tensor.zeros .f32 ⟨[rows, columns]⟩) = .ok result ∧
      result.Stacks [rows, columns] (MatrixStack.normalized ⟨1, rows, columns, element⟩) := by
  obtain ⟨data, hsize, rfl, hproduct, hcells⟩ := hinput
  have hrows : Softmax.rowsOf columns rows data.toList =
      (List.range rows).map (MatrixStack.row ⟨1, rows, columns, element⟩ 0) := by
    refine rowsOf_eq_map_row fun i j hi hj => ?_
    have hcell := hcells 0 i j Nat.one_pos hi hj
    rwa [Nat.zero_mul, Nat.zero_add] at hcell
  let cells : List Float32 := (List.range rows).flatMap fun i =>
    Softmax.normalize (MatrixStack.row ⟨1, rows, columns, element⟩ 0 i)
  have hrow : ∀ i, (Softmax.normalize
      (MatrixStack.row ⟨1, rows, columns, element⟩ 0 i)).length = columns := by
    intro i
    rw [Softmax.length_normalize, MatrixStack.row, List.length_map, List.length_range]
  have hcount : cells.toArray.size = Shape.count ⟨[rows, columns]⟩ := by
    simp [cells, List.length_flatMap, hrow, Shape.count]
  by_cases hcolumns : columns = 0
  · refine ⟨Tensor.zeros .f32 ⟨[rows, columns]⟩, ?_, _, _, rfl, hproduct, ?_⟩
    · simp [softmax, requireSingle, Tensor.elements?, requireShape, Tensor.zeros,
        Tensor.constant, hcolumns]
    · intro q i j _ _ hj
      dsimp only [MatrixStack.normalized] at hj
      omega
  · refine ⟨⟨.f32, ⟨[rows, columns]⟩, cells.toArray, hcount⟩, ?_, _, _, rfl, hproduct, ?_⟩
    · have hmade : Tensor.ofArray .f32 ⟨[rows, columns]⟩ cells.toArray =
          .ok ⟨.f32, ⟨[rows, columns]⟩, cells.toArray, hcount⟩ := dif_pos hcount
      simpa [softmax, requireSingle, Tensor.elements?, requireShape, Tensor.zeros,
        Tensor.constant, hcolumns, hrows, List.flatMap_map] using hmade
    · intro q i j hq hi hj
      dsimp only [MatrixStack.normalized] at hq hi hj ⊢
      obtain rfl : q = 0 := by omega
      rw [Nat.zero_mul, Nat.zero_add, List.getElem?_toArray, getElem?_flatMap_of_length hrow hi hj,
        Softmax.normalize_eq_map, List.getElem?_map]
      simp [MatrixStack.row, hj]

end Kernel
end NetImport
