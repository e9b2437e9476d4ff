import Mathlib.Data.List.ProdSigma
import NetImport.Kernel.Convolution
import NetImport.Proofs.Tensor.RowMajor

/-!
# The cells of a window

A cell of a window lies at a place that is counted from the first row or column of the input
and is negative in the padding before it.  The cells inside the input are the ones that a
convolution adds up, row by row.
-/

namespace NetImport

/-- The place of a cell on one axis, for a window at one of its stops. -/
def windowPlace (stride padding stop cell : Nat) : Int :=
  (stop * stride : Nat) + (cell : Int) - (padding : Int)

/-- A place lies inside the input. -/
def covers (extent : Nat) (place : Int) : Bool := 0 ≤ place && place < extent

theorem covers_iff {extent : Nat} {place : Int} :
    covers extent place = true ↔ 0 ≤ place ∧ place < extent := by
  simp [covers]

theorem toNat_lt_of_covers {extent : Nat} {place : Int} (hcovers : covers extent place = true) :
    place.toNat < extent := by
  have hinside := covers_iff.mp hcovers
  omega

namespace Window

def rowAt (window : Window) (stop cell : Nat) : Int :=
  windowPlace window.stride.height window.padding.top stop cell

def columnAt (window : Window) (stop cell : Nat) : Int :=
  windowPlace window.stride.width window.padding.left stop cell

/-- The cells of a filter that lie inside a plane, with the window at a row and a column of
the result. -/
def filterCells (window : Window) (depth : Nat) (plane : Plane) (row column : Nat) :
    List (Nat × Nat × Nat) :=
  (List.range depth ×ˢ List.range window.kernel.height ×ˢ List.range window.kernel.width).filter
    fun (_, i, j) => covers plane.height (window.rowAt row i) &&
      covers plane.width (window.columnAt column j)

theorem mem_filterCells {window : Window} {depth : Nat} {plane : Plane} {row column c i j : Nat}
    (hcell : (c, i, j) ∈ window.filterCells depth plane row column) :
    c < depth ∧ i < window.kernel.height ∧ j < window.kernel.width ∧
      (window.rowAt row i).toNat < plane.height ∧
      (window.columnAt column j).toNat < plane.width := by
  simp only [filterCells, List.mem_filter, List.mem_product, List.mem_range,
    Bool.and_eq_true] at hcell
  obtain ⟨⟨hc, hi, hj⟩, hrow, hcolumn⟩ := hcell
  exact ⟨hc, hi, hj, toNat_lt_of_covers hrow, toNat_lt_of_covers hcolumn⟩

end Window

/-! ## Stops -/

/-- A window has a first stop on one axis, and steps on. -/
structure WindowStops (kernel stride before after extent : Nat) : Prop where
  kernel_pos : 0 < kernel
  stride_pos : 0 < stride
  kernel_le : kernel ≤ extent + before + after

theorem windowStops?_eq_some_iff {kernel stride before after extent count : Nat} :
    windowStops? kernel stride before after extent = some count ↔
      WindowStops kernel stride before after extent ∧
        count = (extent + before + after - kernel) / stride + 1 := by
  unfold windowStops?
  by_cases hzero : kernel = 0 ∨ stride = 0
  · rw [if_pos hzero]
    refine iff_of_false (by simp) fun hstops => ?_
    have hkernel := hstops.1.kernel_pos
    have hstride := hstops.1.stride_pos
    omega
  · rw [if_neg hzero]
    by_cases hshort : extent + before + after < kernel
    · rw [if_pos hshort]
      exact iff_of_false (by simp) fun hstops => Nat.not_le_of_lt hshort hstops.1.kernel_le
    · rw [if_neg hshort, Option.some.injEq]
      have hstops : WindowStops kernel stride before after extent :=
        ⟨by omega, by omega, Nat.le_of_not_lt hshort⟩
      exact ⟨fun hcount => ⟨hstops, hcount.symm⟩, fun hboth => hboth.2.symm⟩

namespace Window

structure Fits (window : Window) (plane : Plane) : Prop where
  rows : WindowStops window.kernel.height window.stride.height window.padding.top
    window.padding.bottom plane.height
  columns : WindowStops window.kernel.width window.stride.width window.padding.left
    window.padding.right plane.width

/-- The numbers of stops on both axes. -/
def result (window : Window) (plane : Plane) : Plane where
  height := (plane.height + window.padding.top + window.padding.bottom - window.kernel.height) /
    window.stride.height + 1
  width := (plane.width + window.padding.left + window.padding.right - window.kernel.width) /
    window.stride.width + 1

theorem output?_eq_some_iff {window : Window} {plane out : Plane} :
    window.output? plane = some out ↔ window.Fits plane ∧ out = window.result plane := by
  simp only [output?, Option.bind_eq_bind, Option.bind_eq_some_iff, windowStops?_eq_some_iff,
    Option.pure_def, Option.some.injEq]
  constructor
  · rintro ⟨_, ⟨hrows, rfl⟩, _, ⟨hcolumns, rfl⟩, rfl⟩
    exact ⟨⟨hrows, hcolumns⟩, rfl⟩
  · rintro ⟨hfits, rfl⟩
    exact ⟨_, ⟨hfits.rows, rfl⟩, _, ⟨hfits.columns, rfl⟩, rfl⟩

end Window

/-! ## The products of a convolution -/

theorem axisTaps_eq_map (kernel stride padding extent stop : Nat) :
    axisTaps kernel (stop * stride) padding extent =
      ((List.range kernel).filter fun i => covers extent (windowPlace stride padding stop i)).map
        fun i => (i, (windowPlace stride padding stop i).toNat) := by
  rw [← List.filterMap_eq_map, List.filterMap_filter, axisTaps]
  refine List.filterMap_congr fun i _ => ?_
  by_cases hcovers : covers extent (windowPlace stride padding stop i) = true
  · have hinside := covers_iff.mp hcovers
    unfold windowPlace at hinside
    have hplace : (windowPlace stride padding stop i).toNat = stop * stride + i - padding := by
      unfold windowPlace
      omega
    rw [if_pos hcovers, Function.comp_apply, hplace]
    exact if_pos (by omega)
  · have houtside := mt covers_iff.mpr hcovers
    unfold windowPlace at houtside
    rw [if_neg hcovers]
    exact if_neg (by omega)

theorem product_filter_filter {α β : Type} (p : α → Bool) (q : β → Bool) (xs : List α)
    (ys : List β) :
    xs.filter p ×ˢ ys.filter q = (xs ×ˢ ys).filter fun pair => p pair.1 && q pair.2 := by
  induction xs with
  | nil => rfl
  | cons x xs ih =>
      rw [List.product_cons, List.filter_append, List.filter_map, ← ih]
      by_cases hx : p x = true
      · rw [List.filter_cons_of_pos hx, List.product_cons]
        congr 2
        simp [Function.comp_def, hx]
      · rw [List.filter_cons_of_neg hx]
        simp [Function.comp_def, hx]

namespace Convolution

variable {conv : Convolution} {extents : Extents}

/-- The products that a cell of the result adds, by the cells of the filter. -/
theorem taps_eq_map (hkernel : conv.window.kernel = extents.kernel)
    (outputs n output row column : Nat) :
    conv.taps extents outputs n output row column =
      (conv.window.filterCells extents.depth extents.input row column).map fun (c, i, j) =>
        (extents.inputOffset n (output / (outputs / conv.group) * extents.depth + c)
            (conv.window.rowAt row i).toNat (conv.window.columnAt column j).toNat,
          extents.filterOffset output c i j) := by
  have hcells : conv.window.filterCells extents.depth extents.input row column =
      List.range extents.depth ×ˢ
        ((List.range extents.kernel.height).filter fun i =>
          covers extents.input.height (conv.window.rowAt row i)) ×ˢ
        ((List.range extents.kernel.width).filter fun j =>
          covers extents.input.width (conv.window.columnAt column j)) := by
    rw [product_filter_filter, Window.filterCells, hkernel]
    have hall := product_filter_filter (fun _ => true) (fun pair : Nat × Nat =>
      covers extents.input.height (conv.window.rowAt row pair.1) &&
        covers extents.input.width (conv.window.columnAt column pair.2)) (List.range extents.depth)
      (List.range extents.kernel.height ×ˢ List.range extents.kernel.width)
    rw [List.filter_true] at hall
    rw [hall]
    simp
  rw [hcells, taps, axisTaps_eq_map, axisTaps_eq_map]
  simp only [SProd.sprod, List.product, List.map_flatMap, List.flatMap_map, List.map_map]
  rfl

end Convolution
end NetImport
