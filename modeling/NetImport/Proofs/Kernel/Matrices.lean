import NetImport.Kernel.Elementwise
import NetImport.Proofs.Kernel.Permutation
import NetImport.Proofs.Kernel.Reduction
import NetImport.Proofs.Kernel.Rearrangement
import NetImport.Proofs.Tensor.Stacks

/-!
# Kernels on stacks of matrices

Reshaping keeps a stack, transposing its last axes transposes every matrix, slices and
concatenations along the first axis take a stack apart and put it together, and a matrix
product has the sums of products for its elements.
-/

namespace NetImport
namespace Kernel

variable {input : Tensor} {dims : List Nat} {stack : MatrixStack}

theorem reshape_stacks {target : List Nat} (hinput : input.Stacks dims stack)
    (hproduct : product target = product dims) :
    ∃ result, reshape input (Tensor.zeros .f32 ⟨target⟩) = .ok result ∧
      result.Stacks target stack := by
  obtain ⟨data, hsize, rfl, hcount, hcells⟩ := hinput
  have hsame : Shape.count ⟨target⟩ = Shape.count ⟨dims⟩ := hproduct
  have hmoved := @reshape_eq_ok ⟨.f32, ⟨dims⟩, data, hsize⟩ (Tensor.zeros .f32 ⟨target⟩) rfl hsame
  exact ⟨_, hmoved, data, hsize.trans hsame.symm, rfl, by rw [hproduct, hcount], hcells⟩

/-! ## Swapping rows and columns -/

/-- The permutation that exchanges the last two axes. -/
def swapLast (count : Nat) : List Nat := List.range count ++ [count + 1, count]

theorem isPermutation_swapLast (count : Nat) :
    isPermutation (count + 2) (swapLast count) = true := by
  have hdistinct : (swapLast count).Nodup := by
    rw [swapLast, List.nodup_append]
    refine ⟨List.nodup_range, by simp, fun axis haxis last hlast => ?_⟩
    have hbelow := List.mem_range.mp haxis
    simp only [List.mem_cons, List.not_mem_nil, or_false] at hlast
    omega
  have hlength : (swapLast count).length = count + 2 := by simp [swapLast]
  have hinside : (swapLast count).all (· < count + 2) = true := by
    simp [swapLast]
    omega
  simp [isPermutation, hdistinct, hlength, hinside]

theorem transposedShape_swapLast (batch : List Nat) (rows columns : Nat) :
    transposedShape ⟨batch ++ [rows, columns]⟩ (swapLast batch.length) =
      .ok ⟨batch ++ [columns, rows]⟩ := by
  have hpermutation := isPermutation_swapLast batch.length
  have hbatch : (List.range batch.length).map (fun p => (batch ++ [rows, columns]).getD p 0) =
      batch := by
    refine List.ext_getElem (by simp) fun position hposition hbatch => ?_
    simp [List.getD_eq_getElem?_getD, List.getElem?_append_left hbatch, hbatch]
  rw [transposedShape, if_pos (by simpa [Shape.rank] using hpermutation), swapLast,
    List.map_append, hbatch]
  simp [List.getD_eq_getElem?_getD]

theorem transposedOffset_append (dims : List Nat) {perm coords : List Nat}
    (perm' coords' : List Nat) (hlength : coords.length = perm.length) :
    transposedOffset dims (perm ++ perm') (coords ++ coords') =
      transposedOffset dims perm coords + transposedOffset dims perm' coords' := by
  unfold transposedOffset
  rw [List.zipWith_append hlength, total, total, total, List.foldr_append]
  induction List.zipWith (fun c p => c * (strides dims).getD p 0) coords perm with
  | nil => simp
  | cons term terms ih => simp only [List.foldr_cons, ih, Nat.add_assoc]

theorem transposedOffset_swapLast (batch : List Nat) (rows columns : Nat) {coords : List Nat}
    (i j : Nat) (hlength : coords.length = batch.length) :
    transposedOffset (batch ++ [rows, columns]) (swapLast batch.length) (coords ++ [j, i]) =
      offset (batch ++ [rows, columns]) (coords ++ [i, j]) := by
  have hrange : List.range (batch ++ [rows, columns]).length =
      List.range batch.length ++ [batch.length, batch.length + 1] := by
    simp [List.range_succ]
  rw [← transposedOffset_range, hrange, swapLast,
    transposedOffset_append _ _ _ (by simpa using hlength),
    transposedOffset_append _ _ _ (by simpa using hlength)]
  simp [transposedOffset, total, Nat.add_comm]

theorem transpose_stacks {batch : List Nat} {rows columns : Nat}
    {element : Nat → Nat → Nat → Float32}
    (hinput : input.Stacks (batch ++ [rows, columns])
      ⟨product batch, rows, columns, element⟩) :
    ∃ result, transpose input (swapLast batch.length)
        (Tensor.zeros .f32 ⟨batch ++ [columns, rows]⟩) = .ok result ∧
      result.Stacks (batch ++ [columns, rows])
        (MatrixStack.transposed ⟨product batch, rows, columns, element⟩) := by
  obtain ⟨data, hsize, rfl, -, hcells⟩ := hinput
  refine ⟨_, transpose_eq_ok rfl (transposedShape_swapLast batch rows columns), ?_⟩
  refine Tensor.tabulate_stacks fun coords i j hcoords hi hj => ?_
  have hlength := length_of_inBounds hcoords
  rw [transposedOffset_swapLast batch rows columns j i hlength, Tensor.offset_matrix hlength]
  exact Tensor.getD_of_getElem? (hcells _ j i (offset_lt hcoords) hj hi)

/-! ## Taking stacks apart and putting them together -/

theorem slice_stacks {count rows columns index : Nat} {element : Nat → Nat → Nat → Float32}
    (hinput : input.Stacks [count, rows, columns] ⟨count, rows, columns, element⟩)
    (hindex : index < count) :
    ∃ result, slice input [index, 0, 0] (Tensor.zeros .f32 ⟨[1, rows, columns]⟩) = .ok result ∧
      result.Stacks [1, rows, columns]
        (MatrixStack.matrix ⟨count, rows, columns, element⟩ index) := by
  obtain ⟨data, hsize, rfl, -, hcells⟩ := hinput
  have hfits : boxFits [index, 0, 0] [1, rows, columns] [count, rows, columns] = true := by
    simpa [boxFits] using Nat.succ_le_of_lt hindex
  refine ⟨_, slice_eq_ok rfl hfits, ?_⟩
  refine @Tensor.tabulate_stacks [1] _ _ _ _ fun coords i j hcoords hi hj => ?_
  obtain ⟨c, rfl⟩ := List.length_eq_one_iff.mp (length_of_inBounds hcoords)
  obtain rfl : c = 0 := by simpa [inBounds] using hcoords
  have hposition : slicedOffset [count, rows, columns] [index, 0, 0] [0, i, j] =
      (index * rows + i) * columns + j := by
    simp [slicedOffset, Nat.add_mul, Nat.mul_assoc, Nat.add_assoc]
  dsimp only [List.cons_append, List.nil_append]
  rw [hposition]
  exact Tensor.getD_of_getElem? (hcells index i j hindex hi hj)

theorem total_replicate (count x : Nat) : total (List.replicate count x) = count * x := by
  induction count with
  | zero => rw [List.replicate_zero, Nat.zero_mul, total, List.foldr_nil]
  | succ count ih =>
      rw [List.replicate_succ, Nat.succ_mul, Nat.add_comm, ← ih, total, List.foldr_cons, total]

theorem concatShape_replicate (count rows columns : Nat) :
    concatShape 0 (List.replicate (count + 1) ⟨[rows, columns]⟩) =
      .ok ⟨[(count + 1) * rows, columns]⟩ := by
  have hextents : (List.replicate count (⟨[rows, columns]⟩ : Shape)).mapM (fun shape =>
      if agreeExcept 0 [rows, columns] shape.dims then
        (.ok (shape.dims.getD 0 0) : Except TensorError Nat)
      else .error (.shapeMismatch "concat" ⟨[rows, columns]⟩ shape)) =
        .ok (List.replicate count rows) := by
    rw [mapM_eq_ok_iff]
    induction count with
    | zero => exact .nil
    | succ count ih => exact .cons (by simp [agreeExcept]) ih
  rw [List.replicate_succ, concatShape, if_pos (by simp [Shape.rank]), hextents]
  simp [total_replicate, Nat.succ_mul, Nat.add_comm]

theorem joinedElement_stacks {tensors : List Tensor} {rows columns q i j : Nat}
    {element : Nat → Nat → Nat → Float32}
    (htensors : ∀ (q : Nat) (tensor : Tensor), tensors[q]? = some tensor →
      tensor.Stacks [rows, columns] ⟨1, rows, columns, fun _ => element q⟩)
    (hq : q < tensors.length) (hi : i < rows) (hj : j < columns) :
    joinedElement .f32 0 tensors [q * rows + i, j] = element q i j := by
  induction tensors generalizing q element with
  | nil => simp at hq
  | cons tensor tensors ih =>
      obtain ⟨data, hsize, rfl, -, hcells⟩ := htensors 0 tensor rfl
      cases q with
      | zero =>
          have hcell := hcells 0 i j Nat.one_pos hi hj
          rw [Nat.zero_mul, Nat.zero_add] at hcell
          have hposition : offset [rows, columns] [0 * rows + i, j] = i * columns + j := by simp
          rw [joinedElement, if_pos (by simpa using hi), hposition]
          exact Tensor.getD_of_getElem? hcell
      | succ q =>
          have hplace : ¬(q + 1) * rows + i < rows := by
            rw [Nat.succ_mul]
            omega
          have hrest : (q + 1) * rows + i - rows = q * rows + i := by
            rw [Nat.succ_mul]
            omega
          have htail := @ih q (fun q => element (q + 1))
            (fun q tensor htensor => htensors (q + 1) tensor htensor)
            (Nat.lt_of_succ_lt_succ hq)
          simpa [joinedElement, hplace, hrest] using htail

theorem concat_stacks {tensors : List Tensor} {rows columns : Nat}
    {element : Nat → Nat → Nat → Float32} (hne : tensors ≠ [])
    (htensors : ∀ (q : Nat) (tensor : Tensor), tensors[q]? = some tensor →
      tensor.Stacks [rows, columns] ⟨1, rows, columns, fun _ => element q⟩) :
    ∃ result, concat tensors 0 (Tensor.zeros .f32 ⟨[tensors.length * rows, columns]⟩) =
        .ok result ∧
      result.Stacks [tensors.length * rows, columns]
        ⟨tensors.length, rows, columns, element⟩ := by
  have htypes : ∀ tensor ∈ tensors, tensor.type = ⟨.f32, ⟨[rows, columns]⟩⟩ := by
    intro tensor hmem
    obtain ⟨q, hq⟩ := List.mem_iff_getElem?.mp hmem
    exact (htensors q tensor hq).type_eq
  have hshapes : tensors.map Tensor.shape = List.replicate tensors.length ⟨[rows, columns]⟩ := by
    refine List.eq_replicate_iff.mpr ⟨by simp, fun shape hshape => ?_⟩
    obtain ⟨tensor, hmem, rfl⟩ := List.mem_map.mp hshape
    exact congrArg TensorType.shape (htypes tensor hmem)
  have hjoined : (Tensor.tabulate .f32 ⟨[tensors.length * rows, columns]⟩
      (joinedElement .f32 0 tensors)).Stacks [tensors.length * rows, columns]
      ⟨1, tensors.length * rows, columns, fun _ i j => element (i / rows) (i % rows) j⟩ := by
    refine @Tensor.tabulate_stacks [] _ _ _ _ fun coords i j hcoords hi hj => ?_
    obtain rfl := List.eq_nil_of_length_eq_zero (length_of_inBounds hcoords)
    have hrows : 0 < rows := Nat.pos_of_mul_pos_left (Nat.zero_lt_of_lt hi)
    have hcell := joinedElement_stacks htensors (Nat.div_lt_of_lt_mul (Nat.mul_comm .. ▸ hi))
      (Nat.mod_lt i hrows) hj
    rwa [Nat.div_add_mod'] at hcell
  obtain ⟨first, others, rfl⟩ := List.exists_cons_of_ne_nil hne
  obtain ⟨hfirst, -⟩ := TensorType.mk.inj (htypes first (List.mem_cons_self ..))
  have hdtype : ∀ tensor ∈ first :: others, first.dtype = tensor.dtype := fun tensor hmem =>
    hfirst.trans (congrArg TensorType.dtype (htypes tensor hmem)).symm
  have hshape := concatShape_replicate others.length rows columns
  rw [← List.length_cons, ← hshapes] at hshape
  obtain ⟨data, hsize, rfl, -⟩ := htensors 0 first rfl
  refine ⟨_, concat_eq_ok rfl hdtype hshape, ?_⟩
  refine (hjoined.split rfl rfl).congr rfl rfl rfl fun q i j hq hi hj => ?_
  obtain ⟨hblock, hrow⟩ := @mul_add_div_mod q _ _ hi
  simp only [hblock, hrow]

/-! ## Products -/

theorem getElem?_row (lhs rhs : Array Float32) (k n i : Nat) {j : Nat} (hj : j < n) :
    (MatrixProduct.row lhs rhs k n i)[j]? =
      some (dotProduct k (fun p => lhs.getD (i * k + p) 0.0) fun p =>
        rhs.getD (p * n + j) 0.0) := by
  have hfold : ∀ (steps : List Nat) (sums : Array Float32) (sum : Float32),
      sums[j]? = some sum →
      (steps.foldl (fun sums p =>
        MatrixProduct.addScaledRow rhs n p (lhs.getD (i * k + p) 0.0) sums) sums)[j]? =
      some (steps.foldl (fun sum p =>
        sum + lhs.getD (i * k + p) 0.0 * rhs.getD (p * n + j) 0.0) sum) := by
    intro steps
    induction steps with
    | nil => exact fun sums sum hsum => hsum
    | cons p steps ih =>
        intro sums sum hsum
        exact ih _ _ (by simp [MatrixProduct.addScaledRow, hsum])
  exact hfold _ _ _ (by simp [hj])

theorem getElem?_rows (lhs rhs : Array Float32) (k : Nat) {m n i j : Nat} (hi : i < m)
    (hj : j < n) :
    (MatrixProduct.rows lhs rhs m k n)[i * n + j]? =
      some (dotProduct k (fun p => lhs.getD (i * k + p) 0.0) fun p =>
        rhs.getD (p * n + j) 0.0) := by
  have hlength (i : Nat) : (MatrixProduct.row lhs rhs k n i).toList.length = n := by
    rw [Array.length_toList, MatrixProduct.size_row]
  rw [MatrixProduct.rows, getElem?_flatMap_of_length hlength hi hj, Array.getElem?_toList,
    getElem?_row lhs rhs k n i hj]

theorem matrixProduct_stacks {lhs rhs : Tensor} {m k n : Nat} {x y : Nat → Nat → Nat → Float32}
    (hlhs : lhs.Stacks [m, k] ⟨1, m, k, x⟩) (hrhs : rhs.Stacks [k, n] ⟨1, k, n, y⟩) :
    ∃ result, matrixProduct lhs rhs (Tensor.zeros .f32 (Shape.matrix m n)) = .ok result ∧
      result.Stacks [m, n] (MatrixStack.product ⟨1, m, k, x⟩ ⟨1, k, n, y⟩) := by
  obtain ⟨a, hasize, rfl, -, ha⟩ := hlhs
  obtain ⟨b, hbsize, rfl, -, hb⟩ := hrhs
  have hsize : (MatrixProduct.rows a b m k n).toArray.size = (Shape.matrix m n).count := by
    simp [MatrixProduct.length_rows, Shape.matrix, Shape.count]
  refine ⟨⟨.f32, Shape.matrix m n, _, hsize⟩, ?_, _, _, rfl, by simp [MatrixStack.product], ?_⟩
  · have hmade : Tensor.ofArray .f32 (Shape.matrix m n) (MatrixProduct.rows a b m k n).toArray =
        .ok ⟨.f32, Shape.matrix m n, _, hsize⟩ := dif_pos hsize
    simpa [matrixProduct, requireSingle, Tensor.elements?, Shape.matrixProduct?, requireShape,
      Tensor.zeros, Tensor.constant] using hmade
  · intro q i j hq hi hj
    dsimp only [MatrixStack.product] at hq hi hj ⊢
    rw [show q = 0 by omega, Nat.zero_mul, Nat.zero_add]
    rw [List.getElem?_toArray, getElem?_rows a b k hi hj]
    refine congrArg some (dotProduct_congr (fun p hp => ?_) fun p hp => ?_)
    · have hcell := ha 0 i p Nat.one_pos hi hp
      rw [Nat.zero_mul, Nat.zero_add] at hcell
      exact Tensor.getD_of_getElem? hcell
    · have hcell := hb 0 p j Nat.one_pos hp hj
      rw [Nat.zero_mul, Nat.zero_add] at hcell
      exact Tensor.getD_of_getElem? hcell

/-! ## Sums -/

theorem checkBroadcast_row (m n : Nat) : checkBroadcast 1 ⟨[n]⟩ ⟨[m, n]⟩ = .ok () := by
  simp [checkBroadcast, Shape.rank, stretches]

/-- A row, repeated down the rows of a matrix. -/
theorem broadcast_stacks {m n : Nat} {y : Nat → Nat → Nat → Float32}
    (hinput : input.Stacks [n] ⟨1, 1, n, y⟩) :
    ∃ result, broadcast input 1 (Tensor.zeros .f32 ⟨[m, n]⟩) = .ok result ∧
      result.Stacks [m, n] (MatrixStack.repeated ⟨1, 1, n, y⟩ m) := by
  obtain ⟨data, hsize, rfl, -, hcells⟩ := hinput
  refine ⟨_, broadcast_eq_ok rfl (checkBroadcast_row m n), ?_⟩
  refine @Tensor.tabulate_stacks [] _ _ _ _ fun coords i j hcoords hi hj => ?_
  obtain rfl := List.eq_nil_of_length_eq_zero (length_of_inBounds hcoords)
  have hposition : broadcastOffset [n] 1 [i, j] = j := by
    have hplace : (if n = 1 then 0 else j) = j := by
      split
      · omega
      · rfl
    simp [broadcastOffset, hplace]
  have hcell := hcells 0 0 j Nat.one_pos Nat.one_pos hj
  rw [Nat.zero_mul, Nat.zero_add, Nat.zero_mul, Nat.zero_add] at hcell
  dsimp only [List.nil_append]
  rw [hposition]
  exact Tensor.getD_of_getElem? hcell

theorem add_stacks {lhs rhs : Tensor} {count rows columns : Nat}
    {x y : Nat → Nat → Nat → Float32} (hlhs : lhs.Stacks dims ⟨count, rows, columns, x⟩)
    (hrhs : rhs.Stacks dims ⟨count, rows, columns, y⟩) :
    ∃ result, arithmetic .add lhs rhs (Tensor.zeros .f32 ⟨dims⟩) = .ok result ∧
      result.Stacks dims
        (MatrixStack.plus ⟨count, rows, columns, x⟩ ⟨count, rows, columns, y⟩) := by
  obtain ⟨a, hasize, rfl, hcount, ha⟩ := hlhs
  obtain ⟨b, hbsize, rfl, -, hb⟩ := hrhs
  have hsize : (Array.zipWith ArithmeticOp.add.apply a b).size = Shape.count ⟨dims⟩ := by
    rw [Array.size_zipWith, hasize, hbsize, Nat.min_self]
  refine ⟨⟨.f32, ⟨dims⟩, _, hsize⟩, ?_, _, _, rfl, hcount, fun q i j hq hi hj => ?_⟩
  · have hmade : Tensor.ofArray .f32 ⟨dims⟩ (Array.zipWith ArithmeticOp.add.apply a b) =
        .ok ⟨.f32, ⟨dims⟩, _, hsize⟩ := dif_pos hsize
    simpa [arithmetic, requireSingle, Tensor.elements?, requireShape, Tensor.zeros,
      Tensor.constant] using hmade
  · have hleft := ha q i j hq hi hj
    have hright := hb q i j hq hi hj
    dsimp only [MatrixStack.plus] at hleft hright ⊢
    rw [Array.getElem?_zipWith, hleft, hright]
    rfl

end Kernel
end NetImport
