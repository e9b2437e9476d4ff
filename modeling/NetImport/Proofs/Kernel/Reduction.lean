import NetImport.Kernel.Convolution
import NetImport.Kernel.MatrixProduct
import NetImport.Kernel.Pooling
import NetImport.Kernel.Softmax
import NetImport.Proofs.Kernel.Check
import NetImport.Proofs.Tensor.Coordinates

/-!
# Contracts of the kernels that combine elements

Matrix products, softmax, convolution and pooling work on 32-bit numbers and write every
cell of the shape that their operands lead to.  Pooling can still stop at a window that
begins beyond the right edge of its input.
-/

namespace NetImport

/-! ## Matrix products and softmax -/

namespace MatrixProduct

theorem size_row (lhs rhs : Array Float32) (k n i : Nat) :
    (row lhs rhs k n i).size = n := by
  have hfold : ∀ (steps : List Nat) (sums : Array Float32), sums.size = n →
      (steps.foldl (fun sums p => addScaledRow rhs n p (lhs.getD (i * k + p) 0.0) sums)
        sums).size = n := by
    intro steps
    induction steps with
    | nil => exact fun sums hsums => hsums
    | cons p steps ih =>
        intro sums hsums
        exact ih _ (by simp only [addScaledRow, Array.size_mapIdx, hsums])
  exact hfold _ _ (by simp)

theorem length_rows (lhs rhs : Array Float32) (m k n : Nat) :
    (rows lhs rhs m k n).length = m * n := by
  simp [rows, List.length_flatMap, size_row]

end MatrixProduct

namespace Softmax

theorem length_normalize (row : List Float32) : (normalize row).length = row.length := by
  simp only [normalize]
  split <;> simp

theorem rowsOf_eq (columns count : Nat) (values : List Float32) :
    rowsOf columns count values =
      (List.range count).map fun r => (values.drop (r * columns)).take columns := by
  induction count generalizing values with
  | zero => rfl
  | succ count ih =>
      rw [rowsOf, ih, List.range_succ_eq_map]
      simp [Nat.succ_mul, Nat.add_comm]

theorem length_normalized_rows {columns count : Nat} {values : List Float32}
    (hlength : values.length = count * columns) :
    ((rowsOf columns count values).flatMap normalize).length = count * columns := by
  induction count generalizing values with
  | zero => simp [rowsOf]
  | succ count ih =>
      rw [Nat.succ_mul] at hlength
      have hrest : (values.drop columns).length = count * columns := by
        rw [List.length_drop, hlength, Nat.add_sub_cancel]
      have hfirst : (values.take columns).length = columns := by
        rw [List.length_take, hlength]
        omega
      rw [rowsOf, List.flatMap_cons, List.length_append, length_normalize, hfirst, ih hrest,
        Nat.succ_mul, Nat.add_comm]

end Softmax

namespace Kernel

theorem matrixProduct_contract (lhs rhs : Tensor) :
    Contract (matrixProduct lhs rhs) fun type =>
      lhs.dtype = .f32 ∧ rhs.dtype = .f32 ∧
        ∃ m k n, lhs.shape.matrixProduct? rhs.shape = some (m, k, n) ∧
          type = ⟨.f32, Shape.matrix m n⟩ := by
  refine ⟨⟨?_, ?_⟩, ?_⟩
  · intro output result hdone
    simp only [matrixProduct, bind_eq_ok_iff] at hdone
    obtain ⟨a, -, b, -, c, hc, hproduct⟩ := hdone
    split at hproduct
    · cases hproduct
    · simp only [bind_eq_ok_iff] at hproduct
      obtain ⟨-, -, hmade⟩ := hproduct
      rw [Tensor.type_of_ofArray hmade, Tensor.type, dtype_of_requireSingle hc]
  · intro output output' htype
    obtain ⟨hdtype, hshape⟩ := Tensor.type_eq_iff.mp htype
    simp only [matrixProduct, requireSingle_bind_const, hdtype, hshape]
  · intro output
    simp only [matrixProduct, bind_eq_ok_iff, Tensor.type, TensorType.mk.injEq]
    constructor
    · rintro ⟨result, a, ha, b, hb, c, hc, hproduct⟩
      refine ⟨dtype_of_requireSingle ha, dtype_of_requireSingle hb, ?_⟩
      split at hproduct
      · cases hproduct
      · next m k n hfits =>
          simp only [bind_eq_ok_iff, requireShape_eq_ok_iff] at hproduct
          obtain ⟨-, hshape, -⟩ := hproduct
          exact ⟨m, k, n, hfits, dtype_of_requireSingle hc, hshape.symm⟩
    · rintro ⟨hlhs, hrhs, m, k, n, hfits, hdtype, hshape⟩
      obtain ⟨a, ha⟩ := exists_requireSingle_iff.mpr hlhs
      obtain ⟨b, hb⟩ := exists_requireSingle_iff.mpr hrhs
      obtain ⟨c, hc⟩ := exists_requireSingle_iff.mpr hdtype
      have hsize : (MatrixProduct.rows a b m k n).toArray.size = output.shape.count := by
        simp [MatrixProduct.length_rows, hshape, Shape.matrix, Shape.count, product]
      obtain ⟨result, hresult⟩ := (@Tensor.exists_ofArray_iff .f32 _ _).mpr hsize
      refine ⟨result, a, ha, b, hb, c, hc, ?_⟩
      simp only [hfits, bind_eq_ok_iff, requireShape_eq_ok_iff]
      exact ⟨(), hshape.symm, hresult⟩

theorem softmax_fillsOutput (input : Tensor) : FillsOutput (softmax input) := by
  refine ⟨?_, ?_⟩
  · intro output result hdone
    simp only [softmax, bind_eq_ok_iff] at hdone
    obtain ⟨x, -, y, hy, -, -, hrows⟩ := hdone
    split at hrows
    · split at hrows
      · cases hrows
        rfl
      · rw [Tensor.type_of_ofArray hrows, Tensor.type, dtype_of_requireSingle hy]
    · cases hrows
  · intro output output' htype
    obtain ⟨hdtype, hshape⟩ := Tensor.type_eq_iff.mp htype
    simp only [softmax, requireSingle_bind_const, hdtype, hshape]
    refine bind_congr fun x => ?_
    split
    · by_cases heq : input.shape = output'.shape
      · rw [requireShape, if_pos heq, ok_bind, ok_bind]
        split
        · next rows columns hdims =>
            split
            · next hcolumns =>
                -- without columns the output itself is returned, and it has no elements
                have hcount : output.shape.count = 0 := by
                  rw [hshape, ← heq, Shape.count, hdims, hcolumns]
                  simp [product]
                rw [Tensor.eq_of_type_of_count_eq_zero htype hcount]
            · rfl
        · rfl
      · rw [requireShape, if_neg heq, error_bind, error_bind]
    · rfl

theorem softmax_contract (input : Tensor) :
    Contract (softmax input) fun type =>
      input.dtype = .f32 ∧ input.shape.rank = 2 ∧ type = input.type := by
  refine ⟨softmax_fillsOutput input, ?_⟩
  intro output
  simp only [softmax, bind_eq_ok_iff, requireShape_eq_ok_iff, Tensor.type_eq_iff]
  constructor
  · rintro ⟨result, x, hx, y, hy, -, hshape, hrows⟩
    have hinput := dtype_of_requireSingle hx
    split at hrows
    · next rows columns hdims =>
        exact ⟨hinput, by rw [Shape.rank, hdims]; rfl,
          (dtype_of_requireSingle hy).trans hinput.symm, hshape.symm⟩
    · cases hrows
  · rintro ⟨hinput, hrank, hdtype, hshape⟩
    obtain ⟨rows, columns, hdims⟩ := List.length_eq_two.mp hrank
    obtain ⟨x, hx⟩ := exists_requireSingle_iff.mpr hinput
    obtain ⟨y, hy⟩ := exists_requireSingle_iff.mpr (hdtype.trans hinput)
    have hcount : input.shape.count = rows * columns := by
      simp [Shape.count, hdims, product]
    have hlength : x.toList.length = rows * columns := by
      rw [Array.length_toList, size_of_requireSingle hx, hcount]
    have hsize : ((Softmax.rowsOf columns rows x.toList).flatMap
        Softmax.normalize).toArray.size = output.shape.count := by
      rw [List.size_toArray, Softmax.length_normalized_rows hlength, hshape, hcount]
    obtain ⟨result, hresult⟩ := (@Tensor.exists_ofArray_iff .f32 _ _).mpr hsize
    by_cases hcolumns : columns = 0
    · refine ⟨output, x, hx, y, hy, (), hshape.symm, ?_⟩
      simp only [hdims, if_pos hcolumns, pure_eq_ok_iff]
    · refine ⟨result, x, hx, y, hy, (), hshape.symm, ?_⟩
      simp only [hdims, if_neg hcolumns, hresult]

end Kernel

/-! ## Convolution -/

theorem Convolution.dims_of_outputShape {conv : Convolution} {input filter shape : Shape}
    (hshape : conv.outputShape input filter = .ok shape) :
    (∃ batch channels height width, input.dims = [batch, channels, height, width]) ∧
      ∃ outputs depth height width, filter.dims = [outputs, depth, height, width] := by
  unfold outputShape at hshape
  split at hshape
  · next batch channels height width outputs depth kernelHeight kernelWidth hinput hfilter =>
      exact ⟨⟨_, _, _, _, hinput⟩, _, _, _, _, hfilter⟩
  · cases hshape

namespace Kernel

theorem exists_requireBias_iff {bias? : Option Tensor} {outputs : Nat} :
    (∃ elements, requireBias bias? outputs = .ok elements) ↔
      ∀ bias ∈ bias?, bias.type = ⟨.f32, Shape.vector outputs⟩ := by
  cases bias? with
  | none => simp [requireBias]
  | some bias =>
      simp only [requireBias, bind_eq_ok_iff, pure_eq_ok_iff, requireShape_eq_ok_iff,
        Option.mem_some_iff, forall_eq', Tensor.type, TensorType.mk.injEq]
      constructor
      · rintro ⟨-, elements, helements, -, hshape, -⟩
        exact ⟨dtype_of_requireSingle helements, hshape.symm⟩
      · rintro ⟨hdtype, hshape⟩
        obtain ⟨elements, helements⟩ := exists_requireSingle_iff.mpr hdtype
        exact ⟨elements, elements, helements, (), hshape.symm, rfl⟩

theorem convolution_contract (conv : Convolution) (input filter : Tensor)
    (bias? : Option Tensor) :
    Contract (convolution conv input filter bias?) fun type =>
      input.dtype = .f32 ∧ filter.dtype = .f32 ∧ type.dtype = .f32 ∧
        conv.outputShape input.shape filter.shape = .ok type.shape ∧
        ∀ bias ∈ bias?, bias.type = ⟨.f32, Shape.vector (filter.shape.dims.headD 0)⟩ := by
  refine ⟨⟨?_, ?_⟩, ?_⟩
  · intro output result hdone
    simp only [convolution, bind_eq_ok_iff] at hdone
    obtain ⟨x, -, w, -, y, hy, expected, -, -, -, hcells⟩ := hdone
    split at hcells
    · simp only [bind_eq_ok_iff, pure_eq_ok_iff] at hcells
      obtain ⟨bias, -, rfl⟩ := hcells
      exact Tensor.type_eq_iff.mpr ⟨(dtype_of_requireSingle hy).symm, rfl⟩
    · cases hcells
  · intro output output' htype
    obtain ⟨hdtype, hshape⟩ := Tensor.type_eq_iff.mp htype
    simp only [convolution, requireSingle_bind_const, hdtype, hshape]
  · intro output
    simp only [convolution, bind_eq_ok_iff, requireShape_eq_ok_iff, Tensor.type]
    constructor
    · rintro ⟨result, x, hx, w, hw, y, hy, expected, hexpected, -, rfl, hcells⟩
      refine ⟨dtype_of_requireSingle hx, dtype_of_requireSingle hw, dtype_of_requireSingle hy,
        hexpected, ?_⟩
      split at hcells
      · next hfilter =>
          simp only [bind_eq_ok_iff] at hcells
          obtain ⟨bias, hbias, -⟩ := hcells
          rw [hfilter]
          exact exists_requireBias_iff.mp ⟨bias, hbias⟩
      · cases hcells
    · rintro ⟨hinput, hfilter, hdtype, hexpected, hbias⟩
      obtain ⟨x, hx⟩ := exists_requireSingle_iff.mpr hinput
      obtain ⟨w, hw⟩ := exists_requireSingle_iff.mpr hfilter
      obtain ⟨y, hy⟩ := exists_requireSingle_iff.mpr hdtype
      obtain ⟨⟨batch, channels, height, width, hinputDims⟩,
        outputs, depth, kernelHeight, kernelWidth, hfilterDims⟩ :=
        Convolution.dims_of_outputShape hexpected
      rw [hfilterDims] at hbias
      obtain ⟨bias, helements⟩ := exists_requireBias_iff.mpr hbias
      simp only [hinputDims, hfilterDims, bind_eq_ok_iff, pure_eq_ok_iff]
      exact ⟨_, x, hx, w, hw, y, hy, _, hexpected, (), rfl, bias, helements, rfl⟩

end Kernel

/-! ## Pooling -/

namespace Pooling

/-- No window begins beyond the right edge of the padded input. -/
def WithinEdge (pool : Pooling) (input : Shape) : Prop :=
  ∀ output width columns, pool.outputShape input = .ok output →
    input.dim? 3 = some width → output.dim? 3 = some columns →
      ∀ column < columns,
        column * pool.window.stride.width ≤ width + pool.window.padding.left

theorem dims_of_outputShape {pool : Pooling} {input shape : Shape}
    (hshape : pool.outputShape input = .ok shape) :
    ∃ batch channels height width rows columns,
      input.dims = [batch, channels, height, width] ∧
        shape.dims = [batch, channels, rows, columns] := by
  unfold outputShape at hshape
  split at hshape
  · next batch channels height width hinput =>
      split at hshape
      · next out hout =>
          cases hshape
          exact ⟨_, _, _, _, _, _, hinput, rfl⟩
      · cases hshape
  · cases hshape

theorem exists_cell {pool : Pooling} {plane : Nat → Nat → Float32} {input : Plane}
    {row column : Nat}
    (hcolumn : column * pool.window.stride.width ≤ input.width + pool.window.padding.left) :
    ∃ value, pool.cell plane input row column = .ok value := by
  have hplaces : (span pool.window.kernel.width (column * pool.window.stride.width)
      pool.window.padding.left input.width).1 ≤
      (span pool.window.kernel.width (column * pool.window.stride.width)
        pool.window.padding.left input.width).2 := by
    simp only [span]
    omega
  simp only [cell, cells, places, if_pos hplaces, bind_eq_ok_iff, pure_eq_ok_iff]
  obtain ⟨lines, hlines⟩ := exists_mapM_eq_ok_iff.mpr fun row _ => ⟨_, rfl⟩
  exact ⟨_, _, ⟨lines, hlines, rfl⟩, rfl⟩

end Pooling

theorem coords_of_inBounds_four {a b c d : Nat} {coords : List Nat}
    (hcoords : inBounds [a, b, c, d] coords) :
    ∃ n channel row column, coords = [n, channel, row, column] ∧ column < d := by
  obtain _ | ⟨n, _ | ⟨channel, _ | ⟨row, _ | ⟨column, _ | ⟨extra, rest⟩⟩⟩⟩⟩ := coords <;>
    simp [inBounds] at hcoords
  exact ⟨n, channel, row, column, rfl, hcoords.2.2.2⟩

namespace Kernel

theorem pooling_fillsOutput (pool : Pooling) (input : Tensor) :
    FillsOutput (pooling pool input) := by
  refine ⟨?_, ?_⟩
  · intro output result hdone
    simp only [pooling, bind_eq_ok_iff] at hdone
    obtain ⟨x, -, y, hy, expected, -, -, -, hcells⟩ := hdone
    split at hcells
    · simp only [bind_eq_ok_iff] at hcells
      obtain ⟨values, -, hmade⟩ := hcells
      rw [Tensor.type_of_ofArray hmade, Tensor.type, dtype_of_requireSingle hy]
    · cases hcells
  · intro output output' htype
    obtain ⟨hdtype, hshape⟩ := Tensor.type_eq_iff.mp htype
    simp only [pooling, requireSingle_bind_const, hdtype, hshape]

theorem exists_pooledValues {pool : Pooling} {x : Array Float32} {shape : Shape}
    {batch channels height width rows columns : Nat}
    (hdims : shape.dims = [batch, channels, rows, columns])
    (hedge : ∀ column < columns,
      column * pool.window.stride.width ≤ width + pool.window.padding.left) :
    ∃ values, (shape.coordinates.mapM fun
      | [n, channel, row, column] =>
          let plane (r q : Nat) : Float32 :=
            x.getD (((n * channels + channel) * height + r) * width + q) 0.0
          pool.cell plane ⟨height, width⟩ row column
      | _ => .ok 0.0) = .ok values := by
  refine exists_mapM_eq_ok_iff.mpr fun coords hcoords => ?_
  have hbounds := Shape.inBounds_of_mem_coordinates hcoords
  rw [hdims] at hbounds
  obtain ⟨n, channel, row, column, rfl, hcolumn⟩ := coords_of_inBounds_four hbounds
  exact Pooling.exists_cell (hedge column hcolumn)

theorem pooling_contract (pool : Pooling) (input : Tensor)
    (hedge : pool.WithinEdge input.shape) :
    Contract (pooling pool input) fun type =>
      input.dtype = .f32 ∧ type.dtype = .f32 ∧ pool.outputShape input.shape = .ok type.shape := by
  refine ⟨pooling_fillsOutput pool input, ?_⟩
  intro output
  simp only [pooling, bind_eq_ok_iff, requireShape_eq_ok_iff, Tensor.type]
  constructor
  · rintro ⟨result, x, hx, y, hy, expected, hexpected, -, rfl, -⟩
    exact ⟨dtype_of_requireSingle hx, dtype_of_requireSingle hy, hexpected⟩
  · rintro ⟨hinput, hdtype, hexpected⟩
    obtain ⟨x, hx⟩ := exists_requireSingle_iff.mpr hinput
    obtain ⟨y, hy⟩ := exists_requireSingle_iff.mpr hdtype
    obtain ⟨batch, channels, height, width, rows, columns, hinputDims, houtputDims⟩ :=
      Pooling.dims_of_outputShape hexpected
    have hcolumns : ∀ column < columns,
        column * pool.window.stride.width ≤ width + pool.window.padding.left :=
      hedge _ width columns hexpected (by simp [Shape.dim?, hinputDims])
        (by simp [Shape.dim?, houtputDims])
    obtain ⟨values, hvalues⟩ := @exists_pooledValues pool x output.shape batch channels height
      width rows columns houtputDims hcolumns
    have hsize : values.toArray.size = output.shape.count := by
      rw [List.size_toArray, length_of_mapM_eq_ok hvalues, Shape.length_coordinates]
    obtain ⟨result, hresult⟩ := (@Tensor.exists_ofArray_iff .f32 _ _).mpr hsize
    refine ⟨result, x, hx, y, hy, _, hexpected, (), rfl, ?_⟩
    simp only [hinputDims, bind_eq_ok_iff]
    exact ⟨values, hvalues, hresult⟩

end Kernel
end NetImport
