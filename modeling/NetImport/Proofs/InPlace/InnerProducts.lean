import NetImport.Proofs.InPlace.Rows
import NetImport.Proofs.Kernel.Matrices

/-!
# Inner products in place

The loop over the inner index adds to a whole row at once, and each place of the row takes up
its own terms in the order of the index.  So every place ends as the inner product of a row and
a column, whatever the buffer held before.
-/

namespace NetImport
namespace InPlace

variable {lhs rhs previous : Array Float32} {m k n : Nat}

/-- All terms of an inner product stand inside the factors. -/
theorem dotProduct?_row_column {i j : Nat} (hlhs : lhs.size = m * k) (hrhs : rhs.size = k * n)
    (hi : i < m) (hj : j < n) :
    dotProduct? k (fun p => lhs[i * k + p]?) (fun p => rhs[p * n + j]?) =
      some (dotProduct k (fun p => lhs.getD (i * k + p) 0.0) fun p =>
        rhs.getD (p * n + j) 0.0) := by
  apply dotProduct?_eq_some
  · intro p hp
    have hinside : i * k + p < lhs.size := hlhs ▸ mul_add_lt_mul hi hp
    simp [hinside]
  · intro p hp
    have hinside : p * n + j < rhs.size := hrhs ▸ mul_add_lt_mul hp hj
    simp [hinside]

/-- The loops of a product never leave a buffer.  They make the rows of the product, and each
element is the sum of the products along its row and column, added up from zero in the order of
the inner index. -/
theorem multiply_sums_products (hlhs : lhs.size = m * k) (hrhs : rhs.size = k * n)
    (hprevious : previous.size = m * n) :
    ∃ left, multiply lhs rhs m k n previous = .ok () left ∧
      left = (MatrixProduct.rows lhs rhs m k n).toArray ∧ left.size = m * n ∧
      ∀ i < m, ∀ j < n, ∃ sum,
        dotProduct? k (fun p => lhs[i * k + p]?) (fun p => rhs[p * n + j]?) = some sum ∧
          left[i * n + j]? = some sum := by
  refine ⟨_, multiply_run hlhs hrhs hprevious, rfl, ?_, fun i hi j hj => ?_⟩
  · rw [List.size_toArray, MatrixProduct.length_rows]
  · refine ⟨_, dotProduct?_row_column hlhs hrhs hi hj, ?_⟩
    rw [List.getElem?_toArray]
    exact Kernel.getElem?_rows lhs rhs k hi hj

/-- A product of two rows and two columns, over a buffer that holds other numbers. -/
theorem multiply_clears_previous :
    ∃ left, multiply #[1.0, 2.0, 3.0, 4.0] #[5.0, 6.0, 7.0, 8.0] 2 2 2 #[9.0, 9.0, 9.0, 9.0] =
        .ok () left ∧ left[2]? = some (43.0 : Float32) := by
  obtain ⟨left, hrun, -, -, hcells⟩ := @multiply_sums_products #[1.0, 2.0, 3.0, 4.0]
    #[5.0, 6.0, 7.0, 8.0] #[9.0, 9.0, 9.0, 9.0] 2 2 2 rfl rfl rfl
  obtain ⟨sum, hsum, hcell⟩ := hcells 1 (by decide) 0 (by decide)
  have hvalue : some sum = some (43.0 : Float32) := hsum.symm.trans (by decide +kernel)
  exact ⟨left, hrun, hcell.trans hvalue⟩

end InPlace
end NetImport
