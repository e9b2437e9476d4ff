import NetImport.Kernel.Rearrangement
import NetImport.Proofs.Tensor.RowMajor
import Mathlib.Data.List.Perm.Subperm

/-!
# Permutations of axes

A permutation picks extents, strides and coordinates alike, each entry from the position that
it names.  What stands at the coordinates picked from some coordinates of the input is what
stands at those, because the terms of a position only change their order.
-/

namespace NetImport

/-- The entries at the positions that a permutation names, in its order. -/
def permuted (perm entries : List Nat) : List Nat := perm.map fun p => entries.getD p 0

@[simp] theorem length_permuted (perm entries : List Nat) :
    (permuted perm entries).length = perm.length :=
  List.length_map _

theorem permuted_range (entries : List Nat) :
    permuted (List.range entries.length) entries = entries := by
  apply List.ext_getElem (by simp)
  intro i _ hi
  simp [permuted, hi]

/-- Permuting twice permutes once, by the positions that are named behind positions. -/
theorem permuted_permuted {perm next : List Nat} (hnext : ∀ p ∈ next, p < perm.length)
    (entries : List Nat) :
    permuted next (permuted perm entries) = permuted (permuted next perm) entries := by
  unfold permuted
  rw [List.map_map]
  apply List.map_congr_left
  intro p hp
  simp [hnext p hp]

namespace Kernel

theorem isPermutation_iff {rank : Nat} {perm : List Nat} :
    isPermutation rank perm ↔
      perm.length = rank ∧ (∀ p ∈ perm, p < rank) ∧ perm.Nodup := by
  simp [isPermutation, and_assoc]

theorem isPermutation_iff_perm {rank : Nat} {perm : List Nat} :
    isPermutation rank perm ↔ perm.Perm (List.range rank) := by
  rw [isPermutation_iff]
  constructor
  · rintro ⟨hlength, hbelow, hnodup⟩
    have hsubset : perm ⊆ List.range rank := fun p hp => List.mem_range.mpr (hbelow p hp)
    exact (List.subperm_of_subset hnodup hsubset).perm_of_length_le (by simp [hlength])
  · intro hperm
    have hbelow (p : Nat) (hp : p ∈ perm) : p < rank := List.mem_range.mp (hperm.mem_iff.mp hp)
    exact ⟨by simpa using hperm.length_eq, hbelow, hperm.nodup_iff.mpr List.nodup_range⟩

theorem transposedShape_eq_ok_iff {shape expected : Shape} {perm : List Nat} :
    transposedShape shape perm = .ok expected ↔
      isPermutation shape.rank perm ∧ expected = ⟨permuted perm shape.dims⟩ := by
  rw [transposedShape, permuted]
  by_cases hperm : isPermutation shape.rank perm <;> simp [hperm, eq_comm]

theorem length_strides (dims : List Nat) : (strides dims).length = dims.length := by
  induction dims with
  | nil => rfl
  | cons d dims ih => rw [strides, List.length_cons, List.length_cons, ih]

/-- The axes in their order leave every element where it is. -/
theorem transposedOffset_range (dims coords : List Nat) :
    transposedOffset dims (List.range dims.length) coords = offset dims coords := by
  have hstrides : strides dims =
      (List.range dims.length).map fun p => (strides dims).getD p 0 := by
    rw [← length_strides dims]
    exact (permuted_range (strides dims)).symm
  rw [offset, hstrides, List.zipWith_map_right]
  rfl

end Kernel

section

variable {dims perm coords behind : List Nat}

theorem inBounds_permuted :
    inBounds (permuted perm dims) (permuted perm behind) ↔
      ∀ p ∈ perm, behind.getD p 0 < dims.getD p 0 := by
  rw [inBounds_iff_forall₂, permuted, permuted, List.forall₂_map_left_iff,
    List.forall₂_map_right_iff, List.forall₂_same]

theorem inBounds_permuted_iff (hperm : perm.Perm (List.range dims.length))
    (hlength : behind.length = dims.length) :
    inBounds (permuted perm dims) (permuted perm behind) ↔ inBounds dims behind := by
  have hrange := @inBounds_permuted dims (List.range dims.length) behind
  rw [permuted_range, ← hlength, permuted_range, hlength] at hrange
  rw [inBounds_permuted, hrange]
  exact forall_congr' fun p => imp_congr_left hperm.mem_iff

theorem Kernel.transposedOffset_permuted_eq_sum (dims perm behind : List Nat) :
    transposedOffset dims perm (permuted perm behind) =
      total (perm.map fun p => behind.getD p 0 * (strides dims).getD p 0) := by
  rw [transposedOffset, permuted, List.zipWith_map_left, List.zipWith_self]

theorem Kernel.transposedOffset_permuted (hperm : perm.Perm (List.range dims.length))
    (hlength : behind.length = dims.length) :
    transposedOffset dims perm (permuted perm behind) = offset dims behind := by
  have hrange := transposedOffset_permuted_eq_sum dims (List.range dims.length) behind
  rw [← hlength, permuted_range, hlength, transposedOffset_range] at hrange
  rw [transposedOffset_permuted_eq_sum, hrange]
  exact (hperm.map _).foldr_eq 0

/-- Every list of as many entries is picked from another one. -/
theorem exists_permuted_eq (hperm : perm.Perm (List.range perm.length))
    (hlength : coords.length = perm.length) :
    ∃ behind, behind.length = perm.length ∧ permuted perm behind = coords := by
  have hnodup : perm.Nodup := hperm.nodup_iff.mpr List.nodup_range
  refine ⟨(List.range perm.length).map fun p => coords.getD (perm.idxOf p) 0, by simp, ?_⟩
  apply List.ext_getElem (by simp [hlength])
  intro i hi hi'
  have hindex : i < perm.length := lt_of_lt_of_eq hi' hlength
  have hp : perm[i] < perm.length :=
    List.mem_range.mp (hperm.mem_iff.mp (List.getElem_mem hindex))
  simp [permuted, hp, hnodup.idxOf_getElem i hindex, hi']

/-- The coordinates of the input that stand behind coordinates of its transposition. -/
theorem Kernel.exists_behind (hperm : perm.Perm (List.range dims.length))
    (hcoords : inBounds (permuted perm dims) coords) :
    ∃ behind, inBounds dims behind ∧ permuted perm behind = coords ∧
      transposedOffset dims perm coords = offset dims behind := by
  have hrank : perm.length = dims.length := by simpa using hperm.length_eq
  have hlength : coords.length = perm.length := by simpa using length_of_inBounds hcoords
  rw [← hrank] at hperm
  obtain ⟨behind, hbehind, rfl⟩ := exists_permuted_eq hperm hlength
  rw [hrank] at hperm hbehind
  exact ⟨behind, (inBounds_permuted_iff hperm hbehind).mp hcoords, rfl,
    transposedOffset_permuted hperm hbehind⟩

end

end NetImport
