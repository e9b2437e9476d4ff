import NetImport.Proofs.InPlace.Joining

/-!
# Tensors stacked along a new axis

Tensors of one shape are stacked in one of two ways.  Before the last axis they are joined
along an old axis, which is then split in two: the positions stay as they are, since an index
and a place within the extent make one place of the joined axis.  After the last axis each one
gets an axis of extent one, along which they are joined.
-/

namespace NetImport

/-- A tensor holds others along an axis of its own, which stands between the extents that come
before and after it in theirs. -/
structure Tensor.StacksAlong (stacked : Tensor) (dtype : DType) (outer inner : List Nat)
    (tensors : List Tensor) : Prop where
  type_eq : stacked.type = ⟨dtype, ⟨outer ++ tensors.length :: inner⟩⟩
  element : ∀ {index : Nat} {tensor : Tensor}, tensors[index]? = some tensor →
    ∀ before after, inBounds outer before → inBounds inner after →
      ∃ x, stacked.at? dtype (before ++ index :: after) = some x ∧
        tensor.at? dtype (before ++ after) = some x

/-- Coordinates on both sides of an axis that is split in two. -/
theorem offset_split {leading trailing before rest : List Nat} (count extent index place : Nat)
    (hbefore : before.length = leading.length) :
    offset (leading ++ count :: extent :: trailing) (before ++ index :: place :: rest) =
      offset (leading ++ (count * extent) :: trailing)
        (before ++ (index * extent + place) :: rest) := by
  rw [offset_append _ _ hbefore, offset_append _ _ hbefore]
  simp only [offset_cons, product_cons, Nat.add_mul, Nat.mul_assoc, Nat.add_assoc]

namespace Kernel

open InPlace

variable {dtype : DType} {leading trailing dims : List Nat} {tensors : List Tensor}

/-- Reshaping keeps the elements at their positions. -/
theorem exists_reshape {input : Tensor} {target : List Nat}
    (htype : input.type = ⟨dtype, ⟨dims⟩⟩) (hcount : product target = product dims) :
    ∃ result, reshape input (Tensor.zeros dtype ⟨target⟩) = .ok result ∧
      result.type = ⟨dtype, ⟨target⟩⟩ ∧
      ∀ moved coords, inBounds target moved → inBounds dims coords →
        offset target moved = offset dims coords →
        result.at? dtype moved = input.at? dtype coords := by
  obtain ⟨own, shape, data, hsize⟩ := input
  obtain ⟨rfl, rfl⟩ := TensorType.mk.inj htype
  refine ⟨_, @reshape_eq_ok ⟨own, ⟨dims⟩, data, hsize⟩ (Tensor.zeros own ⟨target⟩) rfl hcount,
    rfl, ?_⟩
  intro moved coords hmoved hcoords hoffset
  have hresult := @Tensor.at?_own ⟨own, ⟨target⟩, data, hsize.trans hcount.symm⟩ _ hmoved
  have hinput := @Tensor.at?_own ⟨own, ⟨dims⟩, data, hsize⟩ _ hcoords
  dsimp only at hresult
  rw [hoffset] at hresult
  exact hresult.trans hinput.symm

/-! ## Tensors of one shape -/

section Uniform

variable {extent : Nat} (hne : tensors ≠ [])
  (htypes : ∀ tensor ∈ tensors, tensor.type = ⟨dtype, ⟨leading ++ extent :: trailing⟩⟩)
include htypes

theorem startAt_of_uniform {index : Nat} (hindex : index ≤ tensors.length) :
    startAt leading.length tensors index = index * extent := by
  have hextents : (tensors.take index).map (extentAt leading.length) =
      List.replicate index extent := by
    apply List.eq_replicate_iff.mpr
    refine ⟨by simp [hindex], fun found hfound => ?_⟩
    obtain ⟨tensor, hmem, rfl⟩ := List.mem_map.mp hfound
    exact (aligned_of_type (htypes tensor (List.mem_of_mem_take hmem))).2
  rw [startAt, hextents, total_replicate]

theorem total_of_uniform :
    total (tensors.map (extentAt leading.length)) = tensors.length * extent := by
  have hall := startAt_of_uniform htypes (Nat.le_refl _)
  rwa [startAt, List.take_length] at hall

include hne

/-- Tensors of one shape, joined along one of its axes. -/
theorem exists_concat_of_uniform :
    ∃ joined, concat tensors leading.length
        (Tensor.zeros dtype ⟨leading ++ (tensors.length * extent) :: trailing⟩) = .ok joined ∧
      joined.type = ⟨dtype, ⟨leading ++ (tensors.length * extent) :: trailing⟩⟩ ∧
      ∀ {index : Nat} {tensor : Tensor}, tensors[index]? = some tensor →
        ∀ before place rest, inBounds leading before → place < extent → inBounds trailing rest →
          ∃ x, joined.at? dtype (before ++ (index * extent + place) :: rest) = some x ∧
            tensor.at? dtype (before ++ place :: rest) = some x := by
  have haligned : ∀ tensor ∈ tensors, Aligned dtype leading trailing tensor := fun tensor hmem =>
    (aligned_of_type (htypes tensor hmem)).1
  have htotal := total_of_uniform htypes
  have hconcat := @concat_of_aligned dtype leading trailing tensors
    (Tensor.zeros dtype ⟨leading ++ (tensors.length * extent) :: trailing⟩) hne haligned
    (by rw [htotal]; rfl)
  refine ⟨_, hconcat, by rw [htotal]; rfl, ?_⟩
  intro index tensor htensor before place rest hbefore hplace hrest
  have hextent := (aligned_of_type (htypes tensor (List.mem_of_getElem? htensor))).2
  have hindex := (List.getElem?_eq_some_iff.mp htensor).1
  rw [← startAt_of_uniform htypes (Nat.le_of_lt hindex)]
  exact at?_joined haligned htensor hbefore (hextent.symm ▸ hplace) hrest

/-- Joined along an axis that is then split in two. -/
theorem exists_stacked_before :
    ∃ joined stacked, concat tensors leading.length
        (Tensor.zeros dtype ⟨leading ++ (tensors.length * extent) :: trailing⟩) = .ok joined ∧
      reshape joined (Tensor.zeros dtype ⟨leading ++ tensors.length :: extent :: trailing⟩) =
        .ok stacked ∧
      stacked.StacksAlong dtype leading (extent :: trailing) tensors := by
  obtain ⟨joined, hconcat, hjoined, hcells⟩ := exists_concat_of_uniform hne htypes
  have hcount : product (leading ++ tensors.length :: extent :: trailing) =
      product (leading ++ (tensors.length * extent) :: trailing) := by
    simp only [product_append, product_cons, Nat.mul_assoc]
  obtain ⟨stacked, hreshape, hstacked, hmoved⟩ := exists_reshape hjoined hcount
  refine ⟨joined, stacked, hconcat, hreshape, hstacked, ?_⟩
  intro index tensor htensor before after hbefore hafter
  have hindex := (List.getElem?_eq_some_iff.mp htensor).1
  have hlength : before.length = leading.length := length_of_inBounds hbefore
  -- an index and a place of the old axis make one place of the joined one
  cases after with
  | nil => simp [inBounds] at hafter
  | cons place rest =>
      obtain ⟨hplace, hrest⟩ := (inBounds_cons ..).mp hafter
      have hsplit : inBounds (leading ++ tensors.length :: extent :: trailing)
          (before ++ index :: place :: rest) :=
        (inBounds_around_iff hlength).mpr ⟨hbefore, hindex, hafter⟩
      have hmerged : inBounds (leading ++ (tensors.length * extent) :: trailing)
          (before ++ (index * extent + place) :: rest) :=
        (inBounds_around_iff hlength).mpr ⟨hbefore, mul_add_lt_mul hindex hplace, hrest⟩
      rw [hmoved _ _ hsplit hmerged (offset_split _ _ _ _ hlength)]
      exact hcells htensor before place rest hbefore hplace hrest

end Uniform

/-! ## After the last axis -/

/-- The same elements, with an axis of extent one after the others. -/
structure Expands (dtype : DType) (dims : List Nat) (tensor expanded : Tensor) : Prop where
  type_eq : expanded.type = ⟨dtype, ⟨dims ++ [1]⟩⟩
  element : ∀ coords, inBounds dims coords →
    expanded.at? dtype (coords ++ [0]) = tensor.at? dtype coords

theorem exists_expanded {tensor : Tensor} (htype : tensor.type = ⟨dtype, ⟨dims⟩⟩) :
    ∃ expanded, reshape tensor (Tensor.zeros dtype ⟨dims ++ [1]⟩) = .ok expanded ∧
      Expands dtype dims tensor expanded := by
  have hcount : product (dims ++ [1]) = product dims := by simp [product_append]
  obtain ⟨expanded, hreshape, hexpanded, hmoved⟩ := exists_reshape htype hcount
  refine ⟨expanded, hreshape, hexpanded, fun coords hcoords => ?_⟩
  have hlength : coords.length = dims.length := length_of_inBounds hcoords
  have hinside : inBounds (dims ++ [1]) (coords ++ [0]) :=
    (inBounds_append_iff hlength).mpr ⟨hcoords, rfl⟩
  apply hmoved _ _ hinside hcoords
  rw [offset_append _ _ hlength]
  simp

theorem exists_stacked_after {expanded : List Tensor} (hne : tensors ≠ [])
    (hexpanded : List.Forall₂ (Expands dtype dims) tensors expanded) :
    ∃ stacked, concat expanded dims.length (Tensor.zeros dtype ⟨dims ++ [tensors.length]⟩) =
        .ok stacked ∧
      stacked.StacksAlong dtype dims [] tensors := by
  have hlength : tensors.length = expanded.length := hexpanded.length_eq
  have hsome : expanded ≠ [] := by
    rintro rfl
    exact hne (List.eq_nil_of_length_eq_zero hlength)
  have htypes : ∀ tensor ∈ expanded, tensor.type = ⟨dtype, ⟨dims ++ 1 :: []⟩⟩ := by
    intro tensor hmem
    obtain ⟨index, hindex⟩ := List.mem_iff_getElem?.mp hmem
    obtain ⟨own, -, hown⟩ := getElem?_of_forall₂ hexpanded hindex
    exact hown.type_eq
  obtain ⟨stacked, hconcat, hstacked, hcells⟩ := exists_concat_of_uniform hsome htypes
  rw [Nat.mul_one, ← hlength] at hconcat hstacked
  refine ⟨stacked, hconcat, hstacked, ?_⟩
  intro index tensor htensor before after hbefore hafter
  obtain rfl := List.eq_nil_of_length_eq_zero (length_of_inBounds hafter)
  obtain ⟨own, hown, hexpands⟩ := getElem?_of_forall₂ hexpanded.flip htensor
  -- an expanded tensor has a single place along the axis
  obtain ⟨x, hx, helement⟩ := hcells hown before 0 [] hbefore Nat.one_pos rfl
  rw [Nat.mul_one, Nat.add_zero] at hx
  refine ⟨x, hx, ?_⟩
  rw [List.append_nil, ← hexpands.element before hbefore]
  exact helement

end Kernel
end NetImport
