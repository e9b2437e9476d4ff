import NetImport.Kernel.Rearrangement
import NetImport.Proofs.Kernel.Check

/-!
# Contracts of the kernels that move elements

These kernels take elements of any type.  Where the shape of the result follows from the
operands, the output must have it; reshaping, slicing and broadcasting take the shape of
the output as the one that is asked for.
-/

namespace NetImport
namespace Kernel

theorem reshape_contract (input : Tensor) :
    Contract (reshape input) fun type =>
      type.dtype = input.dtype ∧ type.shape.count = input.shape.count := by
  refine ⟨⟨?_, ?_⟩, ?_⟩
  · intro output result hdone
    simp only [reshape, bind_eq_ok_iff, requireSameDType_eq_ok_iff, Tensor.reshaped] at hdone
    obtain ⟨-, hdtype, hmoved⟩ := hdone
    split at hmoved
    · cases hmoved
      exact Tensor.type_eq_iff.mpr ⟨hdtype, rfl⟩
    · cases hmoved
  · intro output output' htype
    obtain ⟨hdtype, hshape⟩ := Tensor.type_eq_iff.mp htype
    simp only [reshape, hdtype, hshape]
  · intro output
    simp only [reshape, bind_eq_ok_iff, requireSameDType_eq_ok_iff, Tensor.reshaped, Tensor.type]
    constructor
    · rintro ⟨result, -, hdtype, hmoved⟩
      split at hmoved
      · next hcount => exact ⟨hdtype.symm, hcount⟩
      · cases hmoved
    · rintro ⟨hdtype, hcount⟩
      exact ⟨_, (), hdtype.symm, dif_pos hcount⟩

theorem transpose_contract (input : Tensor) (perm : List Nat) :
    Contract (transpose input perm) fun type =>
      type.dtype = input.dtype ∧ transposedShape input.shape perm = .ok type.shape := by
  refine ⟨⟨?_, ?_⟩, ?_⟩
  · intro output result hdone
    simp only [transpose, bind_eq_ok_iff, pure_eq_ok_iff, requireSameDType_eq_ok_iff] at hdone
    obtain ⟨-, hdtype, -, -, -, -, rfl⟩ := hdone
    exact Tensor.type_eq_iff.mpr ⟨hdtype, rfl⟩
  · intro output output' htype
    obtain ⟨hdtype, hshape⟩ := Tensor.type_eq_iff.mp htype
    simp only [transpose, hdtype, hshape]
  · intro output
    simp only [transpose, bind_eq_ok_iff, pure_eq_ok_iff, requireSameDType_eq_ok_iff,
      requireShape_eq_ok_iff, Tensor.type]
    constructor
    · rintro ⟨result, -, hdtype, expected, hexpected, -, rfl, -⟩
      exact ⟨hdtype.symm, hexpected⟩
    · rintro ⟨hdtype, hexpected⟩
      exact ⟨_, (), hdtype.symm, _, hexpected, (), rfl, rfl⟩

theorem slice_contract (input : Tensor) (start : List Nat) :
    Contract (slice input start) fun type =>
      type.dtype = input.dtype ∧ boxFits start type.dims input.shape.dims = true := by
  refine ⟨⟨?_, ?_⟩, ?_⟩
  · intro output result hdone
    simp only [slice, bind_eq_ok_iff, requireSameDType_eq_ok_iff] at hdone
    obtain ⟨-, hdtype, hcut⟩ := hdone
    split at hcut
    · cases hcut
      exact Tensor.type_eq_iff.mpr ⟨hdtype, rfl⟩
    · cases hcut
  · intro output output' htype
    obtain ⟨hdtype, hshape⟩ := Tensor.type_eq_iff.mp htype
    simp only [slice, hdtype, hshape]
  · intro output
    simp only [slice, bind_eq_ok_iff, requireSameDType_eq_ok_iff, Tensor.type, TensorType.dims]
    constructor
    · rintro ⟨result, -, hdtype, hcut⟩
      split at hcut
      · next hfits => exact ⟨hdtype.symm, hfits⟩
      · cases hcut
    · rintro ⟨hdtype, hfits⟩
      exact ⟨_, (), hdtype.symm, if_pos hfits⟩

theorem concat_contract (inputs : List Tensor) (axis : Nat) :
    Contract (concat inputs axis) fun type =>
      inputs ≠ [] ∧ (∀ tensor ∈ inputs, tensor.dtype = type.dtype) ∧
        concatShape axis (inputs.map Tensor.shape) = .ok type.shape := by
  cases inputs with
  | nil =>
      refine ⟨⟨?_, ?_⟩, ?_⟩
      · intro output result hdone
        cases hdone
      · intro output output' htype
        rfl
      · intro output
        simp [concat]
  | cons first others =>
      refine ⟨⟨?_, ?_⟩, ?_⟩
      · intro output result hdone
        simp only [concat, bind_eq_ok_iff, pure_eq_ok_iff, requireSameDType_eq_ok_iff] at hdone
        obtain ⟨-, hdtype, -, -, -, -, -, -, rfl⟩ := hdone
        exact Tensor.type_eq_iff.mpr ⟨hdtype, rfl⟩
      · intro output output' htype
        obtain ⟨hdtype, hshape⟩ := Tensor.type_eq_iff.mp htype
        simp only [concat, hdtype, hshape]
      · intro output
        simp only [concat, bind_eq_ok_iff, pure_eq_ok_iff, requireSameDType_eq_ok_iff,
          requireShape_eq_ok_iff, forM_eq_ok_iff, Tensor.type]
        constructor
        · rintro ⟨result, -, hdtype, -, hall, expected, hexpected, -, rfl, -⟩
          refine ⟨List.cons_ne_nil _ _, fun tensor hmem => ?_, hexpected⟩
          exact (hall tensor hmem).symm.trans hdtype
        · rintro ⟨-, hall, hexpected⟩
          have hfirst := hall first (List.mem_cons_self ..)
          refine ⟨_, (), hfirst, (), fun tensor hmem => ?_, _, hexpected, (), rfl, rfl⟩
          exact hfirst.trans (hall tensor hmem).symm

theorem broadcast_contract (input : Tensor) (axis : Nat) :
    Contract (broadcast input axis) fun type =>
      type.dtype = input.dtype ∧ checkBroadcast axis input.shape type.shape = .ok () := by
  refine ⟨⟨?_, ?_⟩, ?_⟩
  · intro output result hdone
    simp only [broadcast, bind_eq_ok_iff, pure_eq_ok_iff, requireSameDType_eq_ok_iff] at hdone
    obtain ⟨-, hdtype, -, -, rfl⟩ := hdone
    exact Tensor.type_eq_iff.mpr ⟨hdtype, rfl⟩
  · intro output output' htype
    obtain ⟨hdtype, hshape⟩ := Tensor.type_eq_iff.mp htype
    simp only [broadcast, hdtype, hshape]
  · intro output
    simp only [broadcast, bind_eq_ok_iff, pure_eq_ok_iff, requireSameDType_eq_ok_iff,
      Tensor.type]
    constructor
    · rintro ⟨result, -, hdtype, ⟨⟩, hstretches, -⟩
      exact ⟨hdtype.symm, hstretches⟩
    · rintro ⟨hdtype, hstretches⟩
      exact ⟨_, (), hdtype.symm, (), hstretches, rfl⟩

/-! ## What the results hold -/

theorem reshape_eq_ok {input output : Tensor} (hdtype : output.dtype = input.dtype)
    (hcount : output.shape.count = input.shape.count) :
    reshape input output =
      .ok { input with shape := output.shape, size_eq := by rw [input.size_eq, hcount] } := by
  rw [reshape, requireSameDType, if_pos hdtype.symm, ok_bind, Tensor.reshaped, dif_pos hcount]

theorem transpose_eq_ok {input output : Tensor} {perm : List Nat}
    (hdtype : output.dtype = input.dtype)
    (hshape : transposedShape input.shape perm = .ok output.shape) :
    transpose input perm output = .ok (Tensor.tabulate input.dtype output.shape fun coords =>
      input.get (transposedOffset input.shape.dims perm coords)) := by
  rw [transpose, requireSameDType, if_pos hdtype.symm, ok_bind, hshape, ok_bind, requireShape,
    if_pos rfl, ok_bind]
  rfl

theorem slice_eq_ok {input output : Tensor} {start : List Nat}
    (hdtype : output.dtype = input.dtype)
    (hfits : boxFits start output.shape.dims input.shape.dims = true) :
    slice input start output = .ok (Tensor.tabulate input.dtype output.shape fun coords =>
      input.get (slicedOffset input.shape.dims start coords)) := by
  rw [slice, requireSameDType, if_pos hdtype.symm, ok_bind, if_pos hfits]
  rfl

theorem concat_eq_ok {first output : Tensor} {others : List Tensor} {axis : Nat}
    (houtput : output.dtype = first.dtype)
    (hdtype : ∀ tensor ∈ first :: others, first.dtype = tensor.dtype)
    (hshape : concatShape axis ((first :: others).map Tensor.shape) = .ok output.shape) :
    concat (first :: others) axis output =
      .ok (Tensor.tabulate first.dtype output.shape
        (joinedElement first.dtype axis (first :: others))) := by
  have hall : (first :: others).forM
      (fun tensor => requireSameDType "concat" first.dtype tensor.dtype) = .ok () :=
    forM_eq_ok_iff.mpr fun tensor hmem => requireSameDType_eq_ok_iff.mpr (hdtype tensor hmem)
  have hfirst : requireSameDType "concat" first.dtype output.dtype = .ok () :=
    requireSameDType_eq_ok_iff.mpr houtput.symm
  have hfits : requireShape "concat (output)" output.shape output.shape = .ok () :=
    requireShape_eq_ok_iff.mpr rfl
  simp only [concat, hfirst, hall, hshape, hfits, ok_bind]
  rfl

theorem broadcast_eq_ok {input output : Tensor} {axis : Nat}
    (hdtype : output.dtype = input.dtype)
    (hfits : checkBroadcast axis input.shape output.shape = .ok ()) :
    broadcast input axis output = .ok (Tensor.tabulate input.dtype output.shape fun coords =>
      input.get (broadcastOffset input.shape.dims axis coords)) := by
  rw [broadcast, requireSameDType, if_pos hdtype.symm, ok_bind, hfits, ok_bind]
  rfl

/-! ## Filling and selecting -/

theorem splat_contract (value : Float) :
    Contract (fun output => .ok (splat value output)) fun _ => True := by
  refine ⟨⟨?_, ?_⟩, ?_⟩
  · intro output result hdone
    cases hdone
    rfl
  · intro output output' htype
    obtain ⟨hdtype, hshape⟩ := Tensor.type_eq_iff.mp htype
    simp only [splat, hdtype, hshape]
  · intro output
    exact iff_true_intro ⟨_, rfl⟩

theorem select_contract (cond onTrue onFalse : Tensor) :
    Contract (select cond onTrue onFalse) fun type =>
      cond.type = ⟨.bool, onTrue.shape⟩ ∧ onFalse.type = onTrue.type ∧ type = onTrue.type := by
  refine ⟨⟨?_, ?_⟩, ?_⟩
  · intro output result hdone
    unfold select at hdone
    split at hdone
    · cases hdone
    · simp only [bind_eq_ok_iff, requireSameDType_eq_ok_iff] at hdone
      obtain ⟨-, -, -, hdtype, -, -, -, -, -, -, hmade⟩ := hdone
      rw [Tensor.type_of_ofArray hmade, Tensor.type, hdtype]
  · intro output output' htype
    obtain ⟨hdtype, hshape⟩ := Tensor.type_eq_iff.mp htype
    simp only [select, hdtype, hshape]
  · intro output
    simp only [Tensor.type, TensorType.mk.injEq]
    constructor
    · rintro ⟨result, hdone⟩
      unfold select at hdone
      split at hdone
      · cases hdone
      · next mask hmask =>
          simp only [bind_eq_ok_iff, requireSameDType_eq_ok_iff, requireShape_eq_ok_iff] at hdone
          obtain ⟨-, hbranches, -, hdtype, -, htrue, -, hfalse, -, hshape, -⟩ := hdone
          have hcond := Tensor.exists_elements?_iff.mp ⟨mask, hmask⟩
          exact ⟨⟨hcond, htrue⟩, ⟨hbranches.symm, hfalse.symm.trans htrue⟩, hdtype.symm,
            hshape.symm.trans htrue⟩
    · rintro ⟨⟨hcond, htrue⟩, ⟨hbranches, hfalse⟩, hdtype, hshape⟩
      obtain ⟨mask, hmask⟩ := Tensor.exists_elements?_iff.mpr hcond
      obtain ⟨other, hother⟩ := Tensor.exists_elements?_iff.mpr hbranches
      have hmaskSize := Tensor.size_of_elements? hmask
      have hotherSize := Tensor.size_of_elements? hother
      have hsize : (Array.zipWith
          (fun (chosen : Bool) (pair : onTrue.dtype.Element × onTrue.dtype.Element) =>
            if chosen then pair.1 else pair.2)
          mask (Array.zip onTrue.data (elementsAs onTrue.dtype onFalse))).size =
          output.shape.count := by
        simp [elementsAs, hother, hmaskSize, hotherSize, onTrue.size_eq, htrue, hfalse, hshape]
      obtain ⟨result, hresult⟩ := Tensor.exists_ofArray_iff.mpr hsize
      refine ⟨result, ?_⟩
      unfold select
      rw [hmask]
      simp only [bind_eq_ok_iff, requireSameDType_eq_ok_iff, requireShape_eq_ok_iff]
      exact ⟨(), hbranches.symm, (), hdtype.symm, (), htrue, (), htrue.trans hfalse.symm, (),
        htrue.trans hshape.symm, hresult⟩

end Kernel
end NetImport
