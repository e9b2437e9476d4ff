import NetImport.Proofs.Kernel.Check
import NetImport.Proofs.Tensor.RowMajor

/-!
# Elements at coordinates

A tensor is its type with its elements at the coordinates in bounds.
-/

namespace NetImport
namespace Tensor

variable {tensor lhs rhs : Tensor} {dtype : DType} {coords : List Nat}

theorem at?_eq_some (hdtype : tensor.dtype = dtype) (hcoords : inBounds tensor.shape.dims coords) :
    tensor.at? dtype coords =
      some ((Kernel.elementsAs dtype tensor).getD (offset tensor.shape.dims coords) dtype.zero) := by
  subst hdtype
  rw [at?_own hcoords, Kernel.elementsAs, elements?, dif_pos rfl]
  rfl

theorem tabulate_congr {shape : Shape} {f g : List Nat → dtype.Element}
    (hsame : ∀ coords, inBounds shape.dims coords → f coords = g coords) :
    tabulate dtype shape f = tabulate dtype shape g := by
  have hcells : shape.coordinates.map f = shape.coordinates.map g :=
    List.map_congr_left fun coords hmem => hsame coords (Shape.inBounds_of_mem_coordinates hmem)
  simp only [tabulate, hcells]

theorem get_tabulate {shape : Shape} (f : List Nat → dtype.Element)
    (hcoords : inBounds shape.dims coords) :
    (tabulate dtype shape f).get (offset shape.dims coords) = f coords := by
  have hcell := getElem?_data_tabulate f hcoords
  simp only [get, Array.getD_eq_getD_getElem?]
  rw [hcell]
  rfl

/-- Tensors of one type with the same element at every coordinate list are equal. -/
theorem eq_of_at?_eq (htype : lhs.type = rhs.type)
    (hsame : ∀ coords, inBounds lhs.shape.dims coords →
      lhs.at? lhs.dtype coords = rhs.at? lhs.dtype coords) :
    lhs = rhs := by
  obtain ⟨dtype, shape, data, hsize⟩ := lhs
  obtain ⟨dtype', shape', data', hsize'⟩ := rhs
  obtain ⟨rfl, rfl⟩ := type_eq_iff.mp htype
  have hdata : data = data' := by
    apply Array.ext (hsize.trans hsize'.symm)
    intro position hposition hposition'
    obtain ⟨coords, hcoords, rfl⟩ := exists_offset_eq (lt_of_lt_of_eq hposition hsize)
    have hequal := hsame coords hcoords
    rw [at?_own hcoords, @at?_own ⟨dtype, shape, data', hsize'⟩ _ hcoords] at hequal
    simpa [get, hposition, hposition'] using hequal
  subst hdata
  rfl

/-- A tensor tabulates its own elements. -/
theorem tabulate_get (tensor : Tensor) :
    tabulate tensor.dtype tensor.shape (fun coords => tensor.get (offset tensor.shape.dims coords))
      = tensor := by
  apply eq_of_at?_eq
  · rfl
  · intro coords hcoords
    exact (@at?_tabulate _ tensor.shape _ _ hcoords).trans (@at?_own tensor _ hcoords).symm

end Tensor
end NetImport
