import NetImport.Kernel.Elementwise
import NetImport.Proofs.Kernel.Check

/-!
# Contracts of the elementwise kernels

Operands and output share one shape, and the output has the type of the result.
-/

namespace NetImport
namespace Kernel

theorem unary_contract (op : UnaryOp) (input : Tensor) :
    Contract (unary op input) fun type => input.dtype = .f32 ∧ type = input.type := by
  refine ⟨⟨?_, ?_⟩, ?_⟩
  · intro output result hdone
    simp only [unary, bind_eq_ok_iff] at hdone
    obtain ⟨x, -, y, hy, -, -, hmade⟩ := hdone
    rw [Tensor.type_of_ofArray hmade, Tensor.type, dtype_of_requireSingle hy]
  · intro output output' htype
    obtain ⟨hdtype, hshape⟩ := Tensor.type_eq_iff.mp htype
    simp only [unary, requireSingle_bind_const, hdtype, hshape]
  · intro output
    simp only [unary, bind_eq_ok_iff, requireShape_eq_ok_iff, Tensor.type_eq_iff]
    constructor
    · rintro ⟨result, x, hx, y, hy, -, hshape, -⟩
      have hinput := dtype_of_requireSingle hx
      exact ⟨hinput, (dtype_of_requireSingle hy).trans hinput.symm, hshape.symm⟩
    · rintro ⟨hinput, hdtype, hshape⟩
      obtain ⟨x, hx⟩ := exists_requireSingle_iff.mpr hinput
      obtain ⟨y, hy⟩ := exists_requireSingle_iff.mpr (hdtype.trans hinput)
      have hsize : (x.map op.apply).size = output.shape.count := by
        rw [Array.size_map, size_of_requireSingle hx, hshape]
      obtain ⟨result, hresult⟩ := (@Tensor.exists_ofArray_iff .f32 _ _).mpr hsize
      exact ⟨result, x, hx, y, hy, (), hshape.symm, hresult⟩

theorem arithmetic_contract (op : ArithmeticOp) (lhs rhs : Tensor) :
    Contract (arithmetic op lhs rhs) fun type =>
      lhs.dtype = .f32 ∧ rhs.type = lhs.type ∧ type = lhs.type := by
  refine ⟨⟨?_, ?_⟩, ?_⟩
  · intro output result hdone
    simp only [arithmetic, bind_eq_ok_iff] at hdone
    obtain ⟨x, -, y, -, z, hz, -, -, -, -, hmade⟩ := hdone
    rw [Tensor.type_of_ofArray hmade, Tensor.type, dtype_of_requireSingle hz]
  · intro output output' htype
    obtain ⟨hdtype, hshape⟩ := Tensor.type_eq_iff.mp htype
    simp only [arithmetic, requireSingle_bind_const, hdtype, hshape]
  · intro output
    simp only [arithmetic, bind_eq_ok_iff, requireShape_eq_ok_iff, Tensor.type_eq_iff]
    constructor
    · rintro ⟨result, x, hx, y, hy, z, hz, -, hoperands, -, hshape, -⟩
      have hlhs := dtype_of_requireSingle hx
      exact ⟨hlhs, ⟨(dtype_of_requireSingle hy).trans hlhs.symm, hoperands.symm⟩,
        (dtype_of_requireSingle hz).trans hlhs.symm, hshape.symm⟩
    · rintro ⟨hlhs, ⟨hrhs, hoperands⟩, hdtype, hshape⟩
      obtain ⟨x, hx⟩ := exists_requireSingle_iff.mpr hlhs
      obtain ⟨y, hy⟩ := exists_requireSingle_iff.mpr (hrhs.trans hlhs)
      obtain ⟨z, hz⟩ := exists_requireSingle_iff.mpr (hdtype.trans hlhs)
      have hsize : (Array.zipWith op.apply x y).size = output.shape.count := by
        rw [Array.size_zipWith, size_of_requireSingle hx, size_of_requireSingle hy, hoperands,
          hshape, Nat.min_self]
      obtain ⟨result, hresult⟩ := (@Tensor.exists_ofArray_iff .f32 _ _).mpr hsize
      exact ⟨result, x, hx, y, hy, z, hz, (), hoperands.symm, (), hshape.symm, hresult⟩

theorem clip_contract (input : Tensor) (low high : Float) :
    Contract (clip input low high) fun type =>
      type = input.type ∧ ¬low > high ∧ input.dtype ≠ .bool := by
  refine ⟨⟨?_, ?_⟩, ?_⟩
  · intro output result hdone
    simp only [clip, bind_eq_ok_iff, requireSameDType_eq_ok_iff] at hdone
    obtain ⟨-, hdtype, -, -, hrest⟩ := hdone
    split at hrest
    · cases hrest
    · split at hrest
      · cases hrest
      · rw [Tensor.type_of_ofArray hrest, Tensor.type, hdtype]
  · intro output output' htype
    obtain ⟨hdtype, hshape⟩ := Tensor.type_eq_iff.mp htype
    simp only [clip, hdtype, hshape]
  · intro output
    simp only [clip, bind_eq_ok_iff, requireSameDType_eq_ok_iff, requireShape_eq_ok_iff,
      Tensor.type_eq_iff]
    constructor
    · rintro ⟨result, -, hdtype, -, hshape, hrest⟩
      split at hrest
      · cases hrest
      · next horder =>
          split at hrest
          · cases hrest
          · next hbool => exact ⟨⟨hdtype.symm, hshape.symm⟩, horder, hbool⟩
    · rintro ⟨⟨hdtype, hshape⟩, horder, hbool⟩
      have hsize : (input.data.map
          (input.dtype.clamp (input.dtype.ofFloat low) (input.dtype.ofFloat high))).size =
          output.shape.count := by
        rw [Array.size_map, input.size_eq, hshape]
      obtain ⟨result, hresult⟩ := Tensor.exists_ofArray_iff.mpr hsize
      refine ⟨result, (), hdtype.symm, (), hshape.symm, ?_⟩
      rw [if_neg horder, if_neg hbool]
      exact hresult

theorem isNaN_contract (input : Tensor) :
    Contract (isNaN input) fun type => input.dtype = .f32 ∧ type = ⟨.bool, input.shape⟩ := by
  refine ⟨⟨?_, ?_⟩, ?_⟩
  · intro output result hdone
    simp only [isNaN, bind_eq_ok_iff, requireSameDType_eq_ok_iff] at hdone
    obtain ⟨x, -, -, -, -, hdtype, hmade⟩ := hdone
    rw [Tensor.type_of_ofArray hmade, Tensor.type, hdtype]
  · intro output output' htype
    obtain ⟨hdtype, hshape⟩ := Tensor.type_eq_iff.mp htype
    simp only [isNaN, hdtype, hshape]
  · intro output
    simp only [isNaN, bind_eq_ok_iff, requireSameDType_eq_ok_iff, requireShape_eq_ok_iff,
      Tensor.type, TensorType.mk.injEq]
    constructor
    · rintro ⟨result, x, hx, -, hshape, -, hdtype, -⟩
      exact ⟨dtype_of_requireSingle hx, hdtype.symm, hshape.symm⟩
    · rintro ⟨hinput, hdtype, hshape⟩
      obtain ⟨x, hx⟩ := exists_requireSingle_iff.mpr hinput
      have hsize : (x.map Float32.isNaN).size = output.shape.count := by
        rw [Array.size_map, size_of_requireSingle hx, hshape]
      obtain ⟨result, hresult⟩ := (@Tensor.exists_ofArray_iff .bool _ _).mpr hsize
      exact ⟨result, x, hx, (), hshape.symm, (), hdtype.symm, hresult⟩

end Kernel
end NetImport
