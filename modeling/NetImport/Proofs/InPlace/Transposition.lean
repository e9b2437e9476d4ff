import NetImport.Proofs.InPlace.Rearrangement
import NetImport.Proofs.Tensor.Elements
import Mathlib.Data.List.Nodup

/-!
# Transpositions

A transposition moves every element from the coordinates that the permutation names, so that
transpositions compose as their permutations do, and a permutation and its inverse undo each
other.
-/

namespace NetImport

section Permutations

variable {perm next entries behind : List Nat}

/-- The entries stand behind others: what stands at a place is behind it at the place that the
permutation names there. -/
def StandsBehind (perm entries behind : List Nat) : Prop :=
  behind.length = perm.length ∧ ∀ i p : Nat, perm[i]? = some p → behind[p]? = entries[i]?

theorem standsBehind_iff (hperm : perm.Perm (List.range perm.length))
    (hlength : entries.length = perm.length) :
    StandsBehind perm entries behind ↔
      behind.length = perm.length ∧ permuted perm behind = entries := by
  apply and_congr_right
  intro hbehind
  have hbelow (p : Nat) (hp : p ∈ perm) : p < behind.length :=
    hbehind ▸ List.mem_range.mp (hperm.mem_iff.mp hp)
  constructor
  · intro hplaces
    apply List.ext_getElem (by simp [hlength])
    intro i hi hi'
    have hindex : i < perm.length := lt_of_lt_of_eq hi' hlength
    have hplace := hplaces i perm[i] (List.getElem?_eq_getElem hindex)
    rw [List.getElem?_eq_getElem hi'] at hplace
    simp [permuted, hplace]
  · rintro rfl i p hp
    have hinside : p < behind.length := hbelow p (List.mem_of_getElem? hp)
    simp [permuted, hp, hinside]

/-- Exactly one list stands behind another. -/
theorem existsUnique_standsBehind (hperm : perm.Perm (List.range perm.length))
    (hlength : entries.length = perm.length) :
    ∃! behind, StandsBehind perm entries behind := by
  simp only [standsBehind_iff hperm hlength]
  obtain ⟨behind, hbehind, hpermuted⟩ := exists_permuted_eq hperm hlength
  refine ⟨behind, ⟨hbehind, hpermuted⟩, ?_⟩
  rintro other ⟨hother, hpermuted'⟩
  apply List.ext_getElem (hother.trans hbehind.symm)
  intro p hp hp'
  have hmem : p ∈ perm := hperm.mem_iff.mpr (List.mem_range.mpr (hother ▸ hp))
  have hsame : other.getD p 0 = behind.getD p 0 :=
    List.map_inj_left.mp (hpermuted'.trans hpermuted.symm) p hmem
  simpa [hp, hp'] using hsame

theorem perm_permuted (hperm : perm.Perm (List.range perm.length))
    (hnext : next.Perm (List.range perm.length)) :
    (permuted next perm).Perm (List.range perm.length) := by
  have hmoved : (permuted next perm).Perm (permuted (List.range perm.length) perm) := hnext.map _
  rw [permuted_range] at hmoved
  exact hmoved.trans hperm

/-- An inverse on one side is an inverse on the other. -/
theorem permuted_inverse {inverse : List Nat} (hperm : perm.Perm (List.range perm.length))
    (hlength : inverse.length = perm.length)
    (hinverse : permuted perm inverse = List.range perm.length) :
    inverse.Perm (List.range perm.length) ∧
      permuted inverse perm = List.range perm.length := by
  have hback (i : Nat) (hi : i < perm.length) : inverse.getD perm[i] 0 = i := by
    have hplace : i < (permuted perm inverse).length := by simpa using hi
    have hentry : (permuted perm inverse)[i] = i := by simp [hinverse]
    simpa [permuted] using hentry
  -- every position is named by the permutation, so that its inverse entry is known
  have hforth (p : Nat) (hp : p < perm.length) :
      inverse.getD p 0 < perm.length ∧ perm.getD (inverse.getD p 0) 0 = p := by
    obtain ⟨i, hi, rfl⟩ := List.getElem_of_mem (hperm.mem_iff.mpr (List.mem_range.mpr hp))
    rw [hback i hi]
    exact ⟨hi, by simp [hi]⟩
  have hright : permuted inverse perm = List.range perm.length := by
    apply List.ext_getElem (by simp [hlength])
    intro p hp _
    have hinside : p < inverse.length := by simpa using hp
    have hentry := (hforth p (hlength ▸ hinside)).2
    simpa [permuted, hinside] using hentry
  have hnodup : inverse.Nodup := by
    have hmapped : (permuted inverse perm).Nodup := hright ▸ List.nodup_range
    exact List.Nodup.of_map _ hmapped
  have hbelow (p : Nat) (hp : p ∈ inverse) : p < perm.length := by
    obtain ⟨i, hi, rfl⟩ := List.getElem_of_mem hp
    have hentry := (hforth i (hlength ▸ hi)).1
    simpa [hi] using hentry
  exact ⟨Kernel.isPermutation_iff_perm.mp
    (Kernel.isPermutation_iff.mpr ⟨hlength, hbelow, hnodup⟩), hright⟩

end Permutations

namespace Kernel

section Composition

variable {dims perm next : List Nat} (hperm : perm.Perm (List.range dims.length))
  (hnext : next.Perm (List.range dims.length))
include hperm hnext

theorem permuted_permuted_of_perm (entries : List Nat) :
    permuted next (permuted perm entries) = permuted (permuted next perm) entries := by
  apply permuted_permuted
  intro p hp
  rw [hperm.length_eq, List.length_range]
  exact List.mem_range.mp (hnext.mem_iff.mp hp)

theorem perm_permuted_dims : (permuted next perm).Perm (List.range dims.length) := by
  have hrank : perm.length = dims.length := by simpa using hperm.length_eq
  rw [← hrank] at hperm hnext ⊢
  exact perm_permuted hperm hnext

theorem transposedShape_permuted :
    transposedShape ⟨permuted perm dims⟩ next = transposedShape ⟨dims⟩ (permuted next perm) := by
  have hrank : perm.length = dims.length := by simpa using hperm.length_eq
  have hfirst : isPermutation (Shape.rank ⟨permuted perm dims⟩) next := by
    rw [isPermutation_iff_perm, Shape.rank, length_permuted, hrank]
    exact hnext
  have hboth : isPermutation (Shape.rank ⟨dims⟩) (permuted next perm) :=
    isPermutation_iff_perm.mpr (perm_permuted_dims hperm hnext)
  rw [transposedShape_eq_ok_iff.mpr ⟨hboth, rfl⟩, transposedShape_eq_ok_iff]
  exact ⟨hfirst, by rw [permuted_permuted_of_perm hperm hnext]⟩

/-- The coordinates in the middle of two transpositions. -/
theorem exists_between {coords : List Nat}
    (hcoords : inBounds (permuted (permuted next perm) dims) coords) :
    ∃ between, inBounds (permuted perm dims) between ∧
      transposedOffset (permuted perm dims) next coords = offset (permuted perm dims) between ∧
      transposedOffset dims perm between = transposedOffset dims (permuted next perm) coords := by
  have hrank : (permuted perm dims).length = dims.length := by simpa using hperm.length_eq
  rw [← permuted_permuted_of_perm hperm hnext] at hcoords
  obtain ⟨between, hbetween, rfl, hposition⟩ := exists_behind (hrank ▸ hnext) hcoords
  obtain ⟨behind, hbehind, rfl, hposition'⟩ := exists_behind hperm hbetween
  refine ⟨_, hbetween, hposition, ?_⟩
  rw [hposition', permuted_permuted_of_perm hperm hnext,
    transposedOffset_permuted (perm_permuted_dims hperm hnext) (length_of_inBounds hbehind)]

end Composition

variable {input output result : Tensor} {perm next : List Nat}

/-- Two transpositions in a row are one, by the entries of the first permutation that the
second one names. -/
theorem transpose_transpose (hnext : next.Perm (List.range input.shape.rank))
    (hresult : transpose input perm output = .ok result) (buffer : Tensor) :
    transpose result next buffer = transpose input (permuted next perm) buffer := by
  obtain ⟨hdtype, hshape⟩ := (transpose_contract input perm).accepted_iff.mp ⟨result, hresult⟩
  obtain ⟨hpermutation, houtput⟩ := transposedShape_eq_ok_iff.mp hshape
  have hperm : perm.Perm (List.range input.shape.dims.length) :=
    isPermutation_iff_perm.mp hpermutation
  have houtput : output.shape = ⟨permuted perm input.shape.dims⟩ := houtput
  obtain rfl := Except.ok.inj ((transpose_eq_ok hdtype hshape).symm.trans hresult)
  rw [houtput]
  let middle : Tensor := Tensor.tabulate input.dtype ⟨permuted perm input.shape.dims⟩ fun coords =>
    input.get (transposedOffset input.shape.dims perm coords)
  let expected : Shape := ⟨permuted (permuted next perm) input.shape.dims⟩
  have hcells (coords : List Nat) (hcoords : inBounds expected.dims coords) :
      middle.get (transposedOffset (permuted perm input.shape.dims) next coords) =
        input.get (transposedOffset input.shape.dims (permuted next perm) coords) := by
    obtain ⟨between, hbetween, hmiddle, hboth⟩ := exists_between hperm hnext hcoords
    rw [hmiddle, ← hboth]
    exact Tensor.get_tabulate _ hbetween
  have hmoved : transposedShape input.shape (permuted next perm) = .ok expected :=
    transposedShape_eq_ok_iff.mpr
      ⟨isPermutation_iff_perm.mpr (perm_permuted_dims hperm hnext), rfl⟩
  rw [transpose, transpose, hmoved]
  change (requireSameDType "transpose" input.dtype buffer.dtype >>= fun _ =>
    transposedShape ⟨permuted perm input.shape.dims⟩ next >>= _) = _
  rw [transposedShape_permuted hperm hnext, hmoved, ok_bind, ok_bind]
  by_cases hbuffer : expected = buffer.shape
  · exact congrArg (fun moved : Tensor => do
      requireSameDType "transpose" input.dtype buffer.dtype
      requireShape "transpose (output)" expected buffer.shape
      return moved) (Tensor.tabulate_congr (hbuffer ▸ hcells))
  · rw [requireShape, if_neg hbuffer]
    rfl

theorem transpose_range (htype : output.type = input.type) :
    transpose input (List.range input.shape.rank) output = .ok input := by
  obtain ⟨hdtype, hshape⟩ := Tensor.type_eq_iff.mp htype
  have hrange : transposedShape input.shape (List.range input.shape.rank) = .ok output.shape := by
    rw [transposedShape_eq_ok_iff, isPermutation_iff_perm, hshape]
    refine ⟨List.Perm.refl _, ?_⟩
    rw [Shape.rank, permuted_range]
  rw [transpose_eq_ok hdtype hrange, hshape]
  simp only [Shape.rank, transposedOffset_range]
  rw [Tensor.tabulate_get]

/-- An element of the result and the one of the input that stands behind it. -/
theorem at?_transposed (hshape : transposedShape input.shape perm = .ok output.shape)
    {coords behind : List Nat} (hcoords : inBounds output.shape.dims coords)
    (hbehind : StandsBehind perm coords behind) :
    ∃ x, (Tensor.tabulate input.dtype output.shape fun coords =>
        input.get (transposedOffset input.shape.dims perm coords)).at? input.dtype coords = some x ∧
      input.at? input.dtype behind = some x := by
  obtain ⟨hpermutation, houtput⟩ := transposedShape_eq_ok_iff.mp hshape
  have hperm : perm.Perm (List.range input.shape.dims.length) :=
    isPermutation_iff_perm.mp hpermutation
  have hrank : perm.length = input.shape.dims.length := by simpa using hperm.length_eq
  have hdims : output.shape.dims = permuted perm input.shape.dims := congrArg Shape.dims houtput
  have hlength : coords.length = perm.length := by
    rw [length_of_inBounds hcoords, hdims, length_permuted]
  obtain ⟨hcount, rfl⟩ := (standsBehind_iff (hrank ▸ hperm) hlength).mp hbehind
  rw [hrank] at hcount
  have hinside : inBounds input.shape.dims behind := by
    rw [hdims] at hcoords
    exact (inBounds_permuted_iff hperm hcount).mp hcoords
  refine ⟨_, Tensor.at?_tabulate _ hcoords, ?_⟩
  rw [Tensor.at?_own hinside, transposedOffset_permuted hperm hcount]

end Kernel

namespace InPlace

/-- Exactly the permutations of the axes are accepted.  Each element of the result is the one
that stands behind it in the input, and so are the extents.  The inverse permutation brings the
input back, and a second transposition makes a single one with the first, whatever the buffers
held before. -/
theorem transpose_moves {input output : Tensor} {perm : List Nat}
    (hdtype : output.dtype = input.dtype)
    (hshape : Kernel.transposedShape input.shape perm = .ok output.shape) :
    (∀ (shape : Shape) (axes : List Nat),
      (∃ moved, Kernel.transposedShape shape axes = .ok moved) ↔
        axes.Perm (List.range shape.rank)) ∧
    ∃ result, Kernel.transpose input perm output = .ok result ∧
      transpose input perm output.storage = .ok () result.storage ∧
      result.type = output.type ∧ StandsBehind perm output.shape.dims input.shape.dims ∧
      (∀ coords, inBounds output.shape.dims coords →
        (∃! behind, StandsBehind perm coords behind) ∧
        ∀ behind, StandsBehind perm coords behind →
          ∃ x, result.at? input.dtype coords = some x ∧ input.at? input.dtype behind = some x) ∧
      (∃! inverse, StandsBehind perm (List.range perm.length) inverse) ∧
      (∀ inverse, StandsBehind perm (List.range perm.length) inverse →
        ∀ buffer : Tensor, buffer.type = input.type →
          Kernel.transpose result inverse buffer = .ok input) ∧
      ∀ next : List Nat, next.Perm (List.range input.shape.rank) → ∀ buffer : Tensor,
        Kernel.transpose result next buffer =
          Kernel.transpose input (permuted next perm) buffer := by
  obtain ⟨hpermutation, houtput⟩ := Kernel.transposedShape_eq_ok_iff.mp hshape
  have hperm : perm.Perm (List.range input.shape.rank) :=
    Kernel.isPermutation_iff_perm.mp hpermutation
  have hrank : perm.length = input.shape.rank := by simpa using hperm.length_eq
  have hown : perm.Perm (List.range perm.length) := hrank ▸ hperm
  have hdims : output.shape.dims = permuted perm input.shape.dims := congrArg Shape.dims houtput
  have hresult := Kernel.transpose_eq_ok hdtype hshape
  have hcompose := fun (next : List Nat) (hnext : next.Perm (List.range input.shape.rank)) =>
    Kernel.transpose_transpose hnext hresult
  constructor
  · intro shape axes
    rw [← Kernel.isPermutation_iff_perm]
    simp [Kernel.transposedShape_eq_ok_iff]
  refine ⟨_, hresult, ?_, ?_, ?_, ?_, ?_, ?_, hcompose⟩
  · rw [transpose_realizes, hresult]
    rfl
  · exact Tensor.type_eq_iff.mpr ⟨hdtype.symm, rfl⟩
  · exact (standsBehind_iff hown (by simp [hdims])).mpr ⟨hrank.symm, hdims.symm⟩
  · intro coords hcoords
    have hlength : coords.length = perm.length := by
      rw [length_of_inBounds hcoords, hdims, length_permuted]
    exact ⟨existsUnique_standsBehind hown hlength,
      fun behind hbehind => Kernel.at?_transposed hshape hcoords hbehind⟩
  · exact existsUnique_standsBehind hown List.length_range
  · intro inverse hbehind buffer htype
    obtain ⟨hlength, hleft⟩ := (standsBehind_iff hown List.length_range).mp hbehind
    obtain ⟨hinverse, hright⟩ := permuted_inverse hown hlength hleft
    rw [hcompose inverse (hrank ▸ hinverse), hright, hrank]
    exact Kernel.transpose_range htype

/-- The last element of a transposed matrix in a stack of one. -/
theorem transpose_moves_last :
    ∃ result, Kernel.transpose ⟨.i32, ⟨[1, 2, 3]⟩, #[1, 2, 3, 4, 5, 6], rfl⟩ [2, 0, 1]
        (Tensor.zeros .i32 ⟨[3, 1, 2]⟩) = .ok result ∧ result.at? .i32 [2, 0, 1] = some 6 := by
  obtain ⟨-, result, hresult, -, -, -, hcells, -⟩ :=
    @transpose_moves ⟨.i32, ⟨[1, 2, 3]⟩, #[1, 2, 3, 4, 5, 6], rfl⟩
      (Tensor.zeros .i32 ⟨[3, 1, 2]⟩) [2, 0, 1] rfl rfl
  have hbehind : StandsBehind [2, 0, 1] [2, 0, 1] [0, 1, 2] :=
    (standsBehind_iff (by decide) rfl).mpr ⟨rfl, rfl⟩
  obtain ⟨x, hx, hinput⟩ := (hcells [2, 0, 1] rfl).2 [0, 1, 2] hbehind
  exact ⟨result, hresult, hx.trans hinput.symm⟩

/-- Turning images from one storage order to the other and back again. -/
example : permuted [0, 3, 1, 2] [0, 2, 3, 1] = List.range 4 := rfl

end InPlace
end NetImport
