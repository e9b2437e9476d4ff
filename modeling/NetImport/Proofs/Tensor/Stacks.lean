import NetImport.Proofs.Sequencing
import NetImport.Proofs.Tensor.RowMajor

/-!
# Stacks of matrices

The elements of a tensor of 32-bit numbers are those of a stack of matrices, one matrix
after the other and each by rows.  Which stack that is does not depend on how the extents
divide the positions, so a matrix may be read as a stack of its blocks of rows.
-/

namespace NetImport

/-- The sum of products in ascending order of the index. -/
def dotProduct (count : Nat) (x y : Nat → Float32) : Float32 :=
  (List.range count).foldl (fun sum k => sum + x k * y k) 0.0

theorem dotProduct_congr {count : Nat} {x x' y y' : Nat → Float32}
    (hx : ∀ k < count, x k = x' k) (hy : ∀ k < count, y k = y' k) :
    dotProduct count x y = dotProduct count x' y' := by
  refine List.foldl_ext _ _ _ fun sum k hk => ?_
  have hbelow := List.mem_range.mp hk
  rw [hx k hbelow, hy k hbelow]

/-- The sum of products in ascending order of the index, where all of them have a value. -/
def dotProduct? (count : Nat) (x y : Nat → Option Float32) : Option Float32 :=
  (List.range count).foldlM (fun sum k => do return sum + (← x k) * (← y k)) 0.0

theorem dotProduct?_eq_some {count : Nat} {x y : Nat → Option Float32} {x' y' : Nat → Float32}
    (hx : ∀ k < count, x k = some (x' k)) (hy : ∀ k < count, y k = some (y' k)) :
    dotProduct? count x y = some (dotProduct count x' y') := by
  refine foldlM_eq_some_foldl (fun k hk sum => ?_) 0.0
  have hbelow := List.mem_range.mp hk
  rw [hx k hbelow, hy k hbelow]
  rfl

structure MatrixStack where
  count : Nat
  rows : Nat
  columns : Nat
  element : Nat → Nat → Nat → Float32

namespace MatrixStack

/-- One of the matrices. -/
def matrix (stack : MatrixStack) (index : Nat) : MatrixStack where
  count := 1
  rows := stack.rows
  columns := stack.columns
  element := fun _ i j => stack.element index i j

def transposed (stack : MatrixStack) : MatrixStack where
  count := stack.count
  rows := stack.columns
  columns := stack.rows
  element := fun q i j => stack.element q j i

/-- All rows in one matrix. -/
def joined (stack : MatrixStack) : MatrixStack where
  count := 1
  rows := stack.count * stack.rows
  columns := stack.columns
  element := fun _ i j => stack.element (i / stack.rows) (i % stack.rows) j

/-- The product of the first matrices. -/
def product (lhs rhs : MatrixStack) : MatrixStack where
  count := 1
  rows := lhs.rows
  columns := rhs.columns
  element := fun _ i j =>
    dotProduct lhs.columns (fun k => lhs.element 0 i k) fun k => rhs.element 0 k j

/-- The first row, as each row of one matrix. -/
def repeated (stack : MatrixStack) (rows : Nat) : MatrixStack where
  count := 1
  rows := rows
  columns := stack.columns
  element := fun _ _ j => stack.element 0 0 j

/-- The sum of stacks of one size. -/
def plus (lhs rhs : MatrixStack) : MatrixStack where
  count := lhs.count
  rows := lhs.rows
  columns := lhs.columns
  element := fun q i j => lhs.element q i j + rhs.element q i j

end MatrixStack

namespace Tensor

/-- A tensor of some extents holds the elements of a stack. -/
def Stacks (tensor : Tensor) (dims : List Nat) (stack : MatrixStack) : Prop :=
  ∃ data hsize, tensor = ⟨.f32, ⟨dims⟩, data, hsize⟩ ∧
    NetImport.product dims = stack.count * (stack.rows * stack.columns) ∧
    ∀ q i j, q < stack.count → i < stack.rows → j < stack.columns →
      data[(q * stack.rows + i) * stack.columns + j]? = some (stack.element q i j)

variable {tensor : Tensor} {dims : List Nat} {stack stack' : MatrixStack}

theorem Stacks.type_eq (hstacks : tensor.Stacks dims stack) : tensor.type = ⟨.f32, ⟨dims⟩⟩ := by
  obtain ⟨data, hsize, rfl, -⟩ := hstacks
  rfl

theorem offset_matrix {batch coords : List Nat} {rows columns i j : Nat}
    (hlength : coords.length = batch.length) :
    offset (batch ++ [rows, columns]) (coords ++ [i, j]) =
      (offset batch coords * rows + i) * columns + j := by
  rw [offset_append _ _ hlength]
  simp [Nat.add_mul, Nat.mul_assoc, Nat.add_assoc]

/-- A tensor holds a stack for every way to write the number of its elements as a product. -/
theorem exists_stacks_of_product {count rows columns : Nat} (htype : tensor.type = ⟨.f32, ⟨dims⟩⟩)
    (hproduct : NetImport.product dims = count * (rows * columns)) :
    ∃ element, tensor.Stacks dims ⟨count, rows, columns, element⟩ := by
  obtain ⟨dtype, shape, data, hsize⟩ := tensor
  obtain ⟨rfl, rfl⟩ := TensorType.mk.inj htype
  have hcount : data.size = count * (rows * columns) := hsize.trans hproduct
  refine ⟨fun q i j => data.getD ((q * rows + i) * columns + j) 0.0, data, hsize, rfl, hproduct, ?_⟩
  intro q i j hq hi hj
  dsimp only at hq hi hj ⊢
  have hposition : (q * rows + i) * columns + j < data.size := by
    rw [hcount, ← Nat.mul_assoc]
    exact mul_add_lt_mul (mul_add_lt_mul hq hi) hj
  rw [Array.getD_eq_getD_getElem?, Array.getElem?_eq_getElem hposition, Option.getD_some]

/-- Any tensor of batched matrices holds a stack of them. -/
theorem exists_stacks {batch : List Nat} {rows columns : Nat}
    (htype : tensor.type = ⟨.f32, ⟨batch ++ [rows, columns]⟩⟩) :
    ∃ element, tensor.Stacks (batch ++ [rows, columns])
      ⟨NetImport.product batch, rows, columns, element⟩ :=
  exists_stacks_of_product htype (by simp [product_append])

/-- An element of a tensor that is read by rows of some length. -/
def rowMajor? (tensor : Tensor) (columns i j : Nat) : Option Float32 := do
  (← tensor.elements? .f32)[i * columns + j]?

theorem Stacks.rowMajor?_eq {rows columns i j : Nat} {element : Nat → Nat → Nat → Float32}
    (hstacks : tensor.Stacks dims ⟨1, rows, columns, element⟩) (hi : i < rows)
    (hj : j < columns) :
    tensor.rowMajor? columns i j = some (element 0 i j) := by
  obtain ⟨data, hsize, rfl, -, hcells⟩ := hstacks
  have hcell := hcells 0 i j Nat.one_pos hi hj
  rw [Nat.zero_mul, Nat.zero_add] at hcell
  exact hcell

/-- An element of a stack, by the coordinates of its matrix. -/
theorem Stacks.at?_eq {batch : List Nat} {rows columns : Nat}
    {element : Nat → Nat → Nat → Float32}
    (hstacks : tensor.Stacks (batch ++ [rows, columns])
      ⟨NetImport.product batch, rows, columns, element⟩)
    {coords : List Nat} {i j : Nat}
    (hcoords : inBounds (batch ++ [rows, columns]) (coords ++ [i, j]))
    (hlength : coords.length = batch.length) :
    tensor.at? .f32 (coords ++ [i, j]) = some (element (offset batch coords) i j) := by
  obtain ⟨data, hsize, rfl, -, hcells⟩ := hstacks
  have hinside := (inBounds_append_iff hlength).mp hcoords
  obtain ⟨hi, hlast⟩ := (inBounds_cons ..).mp hinside.2
  obtain ⟨hj, -⟩ := (inBounds_cons ..).mp hlast
  have hcell := hcells (offset batch coords) i j (offset_lt hinside.1) hi hj
  rw [← offset_matrix hlength] at hcell
  simp [at?, Shape.flatIndex?, hcoords, elements?, hcell]

theorem Stacks.at?_row {count j : Nat} {element : Nat → Nat → Nat → Float32}
    (hstacks : tensor.Stacks [count] ⟨1, 1, count, element⟩) (hj : j < count) :
    tensor.at? .f32 [j] = some (element 0 0 j) := by
  obtain ⟨data, hsize, rfl, -, hcells⟩ := hstacks
  have hcell := hcells 0 0 j Nat.one_pos Nat.one_pos hj
  rw [Nat.zero_mul, Nat.zero_add, Nat.zero_mul, Nat.zero_add] at hcell
  simp [at?, Shape.flatIndex?, inBounds, hj, elements?, hcell]

theorem getD_of_getElem? {α : Type} {elements : Array α} {position : Nat} {x default : α}
    (hget : elements[position]? = some x) :
    elements.getD position default = x := by
  rw [Array.getD_eq_getD_getElem?, hget, Option.getD_some]

theorem tabulate_stacks {batch : List Nat} {rows columns : Nat} {f : List Nat → Float32}
    {element : Nat → Nat → Nat → Float32}
    (hf : ∀ coords i j, inBounds batch coords → i < rows → j < columns →
      f (coords ++ [i, j]) = element (offset batch coords) i j) :
    (tabulate .f32 ⟨batch ++ [rows, columns]⟩ f).Stacks (batch ++ [rows, columns])
      ⟨NetImport.product batch, rows, columns, element⟩ := by
  refine ⟨_, _, rfl, by simp [product_append], fun q i j hq hi hj => ?_⟩
  obtain ⟨coords, hcoords, rfl⟩ := exists_offset_eq hq
  have hlength := length_of_inBounds hcoords
  have hinside : inBounds (batch ++ [rows, columns]) (coords ++ [i, j]) := by
    rw [inBounds_append_iff hlength]
    exact ⟨hcoords, by simp [inBounds, hi, hj]⟩
  have hcell := @getElem?_data_tabulate .f32 ⟨batch ++ [rows, columns]⟩ f _ hinside
  rw [offset_matrix hlength, hf coords i j hcoords hi hj] at hcell
  exact hcell

/-- The elements in bounds make the stack. -/
theorem Stacks.congr (hstacks : tensor.Stacks dims stack) (hcount : stack.count = stack'.count)
    (hrows : stack.rows = stack'.rows) (hcolumns : stack.columns = stack'.columns)
    (helement : ∀ q i j, q < stack.count → i < stack.rows → j < stack.columns →
      stack.element q i j = stack'.element q i j) :
    tensor.Stacks dims stack' := by
  obtain ⟨count, rows, columns, element⟩ := stack
  obtain ⟨count', rows', columns', element'⟩ := stack'
  obtain rfl : count = count' := hcount
  obtain rfl : rows = rows' := hrows
  obtain rfl : columns = columns' := hcolumns
  obtain ⟨data, hsize, rfl, hproduct, hcells⟩ := hstacks
  refine ⟨data, hsize, rfl, hproduct, fun q i j hq hi hj => ?_⟩
  rw [hcells q i j hq hi hj]
  exact congrArg some (helement q i j hq hi hj)

theorem Stacks.joined (hstacks : tensor.Stacks dims stack) : tensor.Stacks dims stack.joined := by
  obtain ⟨data, hsize, rfl, hproduct, hcells⟩ := hstacks
  refine ⟨data, hsize, rfl, ?_, fun q i j hq hi hj => ?_⟩
  · simp only [MatrixStack.joined, Nat.one_mul]
    rw [hproduct, Nat.mul_assoc]
  · simp only [MatrixStack.joined] at hq hi hj ⊢
    have hrows : 0 < stack.rows := Nat.pos_of_mul_pos_left (Nat.zero_lt_of_lt hi)
    have hcell := hcells (i / stack.rows) (i % stack.rows) j
      (Nat.div_lt_of_lt_mul (Nat.mul_comm .. ▸ hi)) (Nat.mod_lt _ hrows) hj
    rw [Nat.mul_comm (i / stack.rows), Nat.div_add_mod] at hcell
    rw [show q = 0 by omega, Nat.zero_mul, Nat.zero_add]
    exact hcell

/-- A matrix is a stack of its blocks of rows. -/
theorem Stacks.split {count rows : Nat} (hstacks : tensor.Stacks dims stack)
    (hcount : stack.count = 1) (hrows : stack.rows = count * rows) :
    tensor.Stacks dims
      ⟨count, rows, stack.columns, fun q i j => stack.element 0 (q * rows + i) j⟩ := by
  obtain ⟨data, hsize, rfl, hproduct, hcells⟩ := hstacks
  refine ⟨data, hsize, rfl, ?_, fun q i j hq hi hj => ?_⟩
  · rw [hproduct, hcount, hrows, Nat.one_mul, Nat.mul_assoc]
  · dsimp only at hq hi hj ⊢
    have hbound : q * rows + i < stack.rows := hrows ▸ mul_add_lt_mul hq hi
    have hcell := hcells 0 (q * rows + i) j (by omega) hbound hj
    rwa [Nat.zero_mul, Nat.zero_add] at hcell

end Tensor
end NetImport
