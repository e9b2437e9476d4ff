import NetImport.Kernel.Words
import NetImport.Proofs.InPlace.Concatenation
import NetImport.Proofs.Kernel.Rearrangement
import NetImport.Proofs.Tensor.Words

/-!
# Moving elements in words

A slice is the same in words as without when its ends and the count of its input are words, a
concatenation when its extent along the axis is one, and a broadcast when the number of its
last axis is one.
-/

namespace NetImport
namespace Kernel

open InPlace (liftM_bind_eq)

variable {bits : Nat}

/-! ## Slices -/

theorem boxFitsInWords_eq {start size dims : List Nat}
    (hends : ∀ pair ∈ start.zip size, pair.1 + pair.2 < twoPow bits) :
    boxFitsInWords bits start size dims = boxFits start size dims := by
  induction start generalizing size dims with
  | nil => cases size <;> cases dims <;> rfl
  | cons s start ih =>
      cases size with
      | nil => cases dims <;> rfl
      | cons n size =>
          cases dims with
          | nil => rfl
          | cons d dims =>
              rw [List.zip_cons_cons, List.forall_mem_cons] at hends
              rw [boxFitsInWords, boxFits, ih hends.2, Word.add_eq hends.1]

/-- The ends of a box inside a tensor are no larger than its extents. -/
theorem sliceFitsWords_of_boxFits {input : Shape} {start size : List Nat}
    (hinput : input.FitsWords bits) (hfits : boxFits start size input.dims) :
    SliceFitsWords bits input start size := by
  obtain ⟨hdims, hcount⟩ := hinput
  refine ⟨?_, hcount⟩
  clear hcount
  generalize input.dims = dims at hdims hfits
  induction start generalizing size dims with
  | nil => simp
  | cons s start ih =>
      cases size with
      | nil => simp
      | cons n size =>
          cases dims with
          | nil => simp [boxFits] at hfits
          | cons d dims =>
              simp only [boxFits, Bool.and_eq_true, decide_eq_true_eq] at hfits
              rw [List.forall_mem_cons] at hdims
              rw [List.zip_cons_cons, List.forall_mem_cons]
              exact ⟨Nat.lt_of_le_of_lt hfits.1 hdims.1, ih dims hdims.2 hfits.2⟩

/-- The position that is found in words is what is left of the position. -/
theorem slicedOffsetInWords_eq_hold (dims start coords : List Nat) :
    slicedOffsetInWords bits dims start coords =
      Word.hold bits (slicedOffset dims start coords) := by
  rw [slicedOffsetInWords, totalInWords_eq_hold, slicedOffset, offset, stridesInWords_eq_map]
  induction dims generalizing start coords with
  | nil => simp [strides]
  | cons d dims ih =>
      cases coords with
      | nil => rfl
      | cons c coords =>
          cases start with
          | nil => rfl
          | cons s start =>
              have hfirst : Word.mul bits (Word.add bits c s) (Word.hold bits (product dims)) =
                  Word.hold bits ((c + s) * product dims) := by
                rw [Word.mul_hold_right]
                exact Word.mul_hold_left ..
              simp only [strides, List.map_cons, List.zipWith_cons_cons, total_cons, hfirst]
              have hrest := congrArg (Word.add bits ((c + s) * product dims)) (ih start coords)
              rw [Word.add_hold_right, Word.add_hold_right] at hrest
              rw [← hrest]
              exact Word.add_hold_left ..

theorem sliceInWords_eq {input : Tensor} {start : List Nat} (output : Tensor)
    (hwords : SliceFitsWords bits input.shape start output.shape.dims) :
    sliceInWords bits input start output = liftM (slice input start output) := by
  obtain ⟨hends, hcount⟩ := hwords
  rw [sliceInWords, slice, boxFitsInWords_eq hends]
  refine liftM_bind_eq fun _ _ => ?_
  by_cases hfits : boxFits start output.shape.dims input.shape.dims = true
  · rw [if_pos hfits, if_pos hfits]
    refine Tensor.tabulate_of_mapM fun coords hcoords => ?_
    have hinside := InPlace.inBounds_of_boxFits hfits (Shape.inBounds_of_mem_coordinates hcoords)
    have hposition : slicedOffset input.shape.dims start coords < input.shape.count :=
      offset_lt hinside
    have hsize : slicedOffset input.shape.dims start coords < input.data.size :=
      lt_of_lt_of_eq hposition input.size_eq.symm
    rw [slicedOffsetInWords_eq_hold, Word.hold_eq (Nat.lt_trans hposition hcount)]
    simp [InPlace.orFault, Tensor.get, hsize]
  · rw [if_neg hfits, if_neg hfits]
    rfl

/-! ## Concatenation -/

theorem concatFitsWords_of_concatShape {axis : Nat} {shapes : List Shape} {expected : Shape}
    (hshape : concatShape axis shapes = .ok expected) (hwords : expected.FitsWords bits) :
    ConcatFitsWords bits axis shapes := by
  obtain ⟨leading, trailing, -, -, hexpected⟩ := InPlace.exists_layout hshape
  apply hwords.1
  rw [hexpected]
  exact List.mem_append_right _ (List.mem_cons_self ..)

theorem concatShapeInWords_eq {axis : Nat} {shapes : List Shape}
    (hwords : ConcatFitsWords bits axis shapes) :
    concatShapeInWords bits axis shapes = concatShape axis shapes := by
  cases shapes with
  | nil => rfl
  | cons first others =>
      rw [concatShapeInWords, concatShape]
      by_cases haxis : axis < first.rank
      · rw [if_pos haxis, if_pos haxis]
        refine bind_congr_ok fun extents hextents => ?_
        obtain ⟨-, hsum⟩ := InPlace.extents_of_mapM hextents
        rw [ConcatFitsWords, List.map_cons, total_cons, ← hsum] at hwords
        have hfold := foldl_add_words bits (first.dims.getD axis 0) extents
        rw [Word.hold_eq (by omega), Word.hold_eq hwords] at hfold
        rw [hfold]
      · rw [if_neg haxis, if_neg haxis]

/-- A joined shape has room for the elements of all shapes. -/
theorem count_of_concatShape {axis : Nat} {shapes : List Shape} {expected : Shape}
    (hshape : concatShape axis shapes = .ok expected) :
    total (shapes.map Shape.count) = expected.count := by
  obtain ⟨leading, trailing, -, hdims, hexpected⟩ := InPlace.exists_layout hshape
  rw [Shape.count, hexpected, product_append, product_cons]
  clear hshape hexpected
  induction shapes with
  | nil => simp [total]
  | cons shape shapes ih =>
      rw [List.forall_mem_cons] at hdims
      have hcount : shape.count = _ := congrArg product hdims.1
      rw [product_append, product_cons] at hcount
      rw [List.map_cons, List.map_cons, total_cons, total_cons, ih hdims.2, hcount, Nat.add_mul,
        Nat.mul_add]

theorem concatInWords_eq {inputs : List Tensor} {axis : Nat} (output : Tensor)
    (hwords : ConcatFitsWords bits axis (inputs.map Tensor.shape)) :
    concatInWords bits inputs axis output = liftM (concat inputs axis output) := by
  cases inputs with
  | nil => rfl
  | cons first others =>
      rw [concatInWords, concat, concatShapeInWords_eq hwords]
      refine liftM_bind_eq fun _ _ => liftM_bind_eq fun _ _ =>
        liftM_bind_eq fun expected hexpected => liftM_bind_eq fun _ hshape => ?_
      have hroom := count_of_concatShape hexpected
      rw [requireShape_eq_ok_iff.mp hshape, List.map_map] at hroom
      exact if_pos hroom

/-- Tensors that are joined to a result whose extents are words are joined to it in words. -/
theorem concatInWords_eq_ok {inputs : List Tensor} {axis : Nat} {output result : Tensor}
    (hconcat : concat inputs axis output = .ok result) (hwords : result.shape.FitsWords bits) :
    concatInWords bits inputs axis output = .ok result := by
  obtain ⟨-, -, hshape⟩ := (concat_contract inputs axis).accepted_iff.mp ⟨result, hconcat⟩
  have hkept := (concat_contract inputs axis).keepsType hconcat
  rw [← hkept] at hshape
  rw [concatInWords_eq output (concatFitsWords_of_concatShape hshape hwords), hconcat]
  rfl

/-- A slice that is taken from a tensor whose extents are words is taken from it in words. -/
theorem sliceInWords_eq_ok {input output result : Tensor} {start : List Nat}
    (hslice : slice input start output = .ok result) (hwords : input.shape.FitsWords bits) :
    sliceInWords bits input start output = .ok result := by
  obtain ⟨-, hfits⟩ := (slice_contract input start).accepted_iff.mp ⟨result, hslice⟩
  rw [sliceInWords_eq output (sliceFitsWords_of_boxFits hwords hfits), hslice]
  rfl

/-! ## Broadcasting -/

theorem checkBroadcastInWords_eq {axis : Nat} {input target : Shape}
    (hwords : axis + input.rank < twoPow bits) :
    checkBroadcastInWords bits axis input target = liftM (checkBroadcast axis input target) := by
  rw [checkBroadcastInWords, checkBroadcast, Word.add_eq hwords]
  by_cases hrank : axis + input.rank ≤ target.rank
  · have hlength : input.dims.length ≤ (target.dims.drop axis).length := by
      rw [List.length_drop]
      exact Nat.le_sub_of_add_le' hrank
    rw [if_neg (Nat.not_lt_of_le hrank), if_neg (by omega),
      ← InPlace.stretches_eq_all hlength]
    by_cases hstretches : stretches input.dims (target.dims.drop axis) = true
    · rw [if_pos hstretches, if_pos ⟨hrank, hstretches⟩]
      rfl
    · rw [if_neg hstretches, if_neg fun hboth => hstretches hboth.2]
      rfl
  · rw [if_pos (Nat.lt_of_not_le hrank), if_neg fun hboth => hrank hboth.1]
    rfl

theorem broadcastInWords_eq {input : Tensor} {axis : Nat} (output : Tensor)
    (hwords : axis + input.shape.rank < twoPow bits) :
    broadcastInWords bits input axis output = liftM (broadcast input axis output) := by
  rw [broadcastInWords, broadcast, checkBroadcastInWords_eq hwords]
  refine liftM_bind_eq fun _ _ => liftM_bind_eq fun _ hchecked => ?_
  have hrank : axis + input.shape.rank ≤ output.shape.rank := by
    unfold checkBroadcast at hchecked
    split at hchecked
    · next hboth => exact hboth.1
    · cases hchecked
  exact if_pos hrank

end Kernel
end NetImport
