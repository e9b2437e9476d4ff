import NetImport.Proofs.Lowering.BatchProduct
import NetImport.Proofs.Lowering.Words

/-!
# The product of batched operands in words

The positions of a batch are counted in words.  While the counts of the operands and of their
product are words, the product is lowered as without.
-/

namespace NetImport
namespace Lowering

namespace BatchOperand

/-- The extents of the stack that an operand is and the count of its elements are words. -/
structure FitsWords (bits : Nat) (operand : BatchOperand) : Prop where
  count : operand.count < twoPow bits
  rows : operand.rows < twoPow bits
  columns : operand.columns < twoPow bits
  elements : operand.count * (operand.rows * operand.columns) < twoPow bits

/-- The positions of the product, the rows at all of them and its elements are words. -/
structure ProductFitsWords (bits : Nat) (lhs rhs : BatchOperand) : Prop where
  count : product (lhs.productBatch rhs) < twoPow bits
  rows : product (lhs.productBatch rhs) * lhs.height < twoPow bits
  elements : product (lhs.productBatch rhs) * lhs.height * rhs.width < twoPow bits

theorem product_dims (operand : BatchOperand) :
    product operand.dims = operand.count * (operand.rows * operand.columns) := by
  simp [dims, count, product_append]

theorem height_mul_width (operand : BatchOperand) :
    operand.height * operand.width = operand.rows * operand.columns := by
  unfold height width
  split
  · exact Nat.mul_comm ..
  · rfl

end BatchOperand

variable {bits : Nat} {work : Workspace} {bindings : Bindings} {given : Prop} {op : Operator}
  {name side : String} {operand lhs rhs : BatchOperand} {element x y : Nat → Nat → Nat → Float32}
  {batch : List Nat}

/-! ## Single matrices -/

theorem run_toMatrixInWords (hoperand : work.Holds bindings given operand.value operand.dims
      (operand.stored element)) (hone : operand.count = 1) (hwords : operand.FitsWords bits) :
    (operand.toMatrixInWords bits op side).run.run work = (operand.toMatrix op side).run.run work := by
  have hcount := hwords.elements
  refine run_bind_congr (run_reshapeToInWords hoperand ?_ ?_) fun _ _ _ => rfl
  · rwa [operand.product_dims]
  · simpa [hone] using hcount

/-! ## Matrices of a batch -/

theorem run_flattenedInWords (hoperand : work.Holds bindings given operand.value operand.dims
      (operand.stored element)) (hwords : operand.FitsWords bits) :
    (operand.flattenedInWords bits op side).run.run work =
      (operand.flattened op side).run.run work := by
  have hcount : operand.countInWords bits = operand.count := productInWords_eq hwords.count
  rw [BatchOperand.flattenedInWords, BatchOperand.flattened, hcount]
  refine run_reshapeToInWords hoperand ?_ ?_
  · rw [operand.product_dims]
    exact hwords.elements
  · simpa using hwords.elements

theorem run_matrixAtInWords {flat : Handle} {position : Nat}
    (hflat : work.Holds bindings given flat [operand.count, operand.rows, operand.columns]
      (operand.stored element)) (hposition : position < operand.count)
    (hwords : operand.FitsWords bits) :
    (operand.matrixAtInWords bits op flat position side).run.run work =
      (operand.matrixAt op flat position side).run.run work := by
  have hmatrix : operand.rows * operand.columns < twoPow bits :=
    Nat.lt_of_le_of_lt (Nat.le_mul_of_pos_left _ (Nat.zero_lt_of_lt hposition)) hwords.elements
  refine run_bind_congr_of_succeeds
    (run_sliceInWords hflat hposition hwords.count hwords.rows hwords.columns hwords.elements)
    (succeeds_slice hflat hposition) ?_
  intro slice next hnext hslice
  refine run_bind_congr (run_reshapeInWords hslice ?_ ?_) fun _ _ _ => rfl
  · simpa using hmatrix
  · simpa using hmatrix

theorem run_matrixSourceInWords {count : Nat}
    (hoperand : work.Holds bindings given operand.value operand.dims (operand.stored element))
    (hwords : operand.FitsWords bits) :
    (matrixSourceInWords bits op operand count side).run.run work =
      (matrixSource op operand count side).run.run work := by
  have hcount : operand.countInWords bits = operand.count := productInWords_eq hwords.count
  unfold matrixSourceInWords matrixSource
  rw [hcount]
  split
  · next hshared =>
      have hone := BatchOperand.count_of_isSingle hshared.1
      exact run_bind_congr (run_toMatrixInWords hoperand hone hwords) fun _ _ _ => rfl
  · exact run_bind_congr (run_flattenedInWords hoperand hwords) fun _ _ _ => rfl

theorem run_matrixFromInWords {count position : Nat} {source : MatrixSource}
    (hsource : source.Supplies work bindings given operand element count)
    (hposition : position < count) (hwords : operand.FitsWords bits) :
    (matrixFromInWords bits op operand source position side).run.run work =
      (matrixFrom op operand source position side).run.run work := by
  cases source with
  | sliced flat =>
      obtain ⟨rfl, hflat⟩ := hsource
      exact run_matrixAtInWords hflat hposition hwords
  | shared matrix => rfl

theorem run_productAtInWords {count position : Nat} {lhsSource rhsSource : MatrixSource}
    (hlhs : lhsSource.Supplies work bindings given lhs x count)
    (hrhs : rhsSource.Supplies work bindings given rhs y count) (hposition : position < count)
    (hlhsWords : lhs.FitsWords bits) (hrhsWords : rhs.FitsWords bits) :
    (do
      let a ← matrixFromInWords bits op lhs lhsSource position "lhs"
      let b ← matrixFromInWords bits op rhs rhsSource position "rhs"
      build op fun graph => graph.matrixProduct name a b).run.run work =
    (do
      let a ← matrixFrom op lhs lhsSource position "lhs"
      let b ← matrixFrom op rhs rhsSource position "rhs"
      build op fun graph => graph.matrixProduct name a b).run.run work := by
  refine run_bind_congr_of_succeeds (run_matrixFromInWords hlhs hposition hlhsWords)
    (succeeds_matrixFrom hlhs hposition) ?_
  intro a next hnext ha
  exact run_bind_congr (run_matrixFromInWords (hrhs.mono hnext) hposition hrhsWords)
    fun _ _ _ => rfl

theorem run_joinInWords {values : List Handle} {first : Handle} {stack : MatrixStack}
    (hfirst : values[0]? = some first) (hcount : stack.count = product batch)
    (hlength : values.length = stack.count)
    (hvalues : ∀ (q : Nat) (value : Handle), values[q]? = some value →
      work.Holds bindings given value [stack.rows, stack.columns] (stack.matrix q))
    (hrows : stack.count * stack.rows < twoPow bits)
    (helements : stack.count * stack.rows * stack.columns < twoPow bits) :
    (do
      let dims ← dimsOf op first
      let rows ← extentAt op dims 0
      let columns ← extentAt op dims 1
      let joined ← buildInWords bits op (nodeName op "concat") (.concat values 0)
      buildInWords bits op op.label (.reshape joined (batch ++ [rows, columns]))).run.run work =
    (do
      let dims ← dimsOf op first
      let rows ← extentAt op dims 0
      let columns ← extentAt op dims 1
      let joined ← build op fun graph => graph.concat (nodeName op "concat") values 0
      build op fun graph =>
        graph.reshape op.label joined (batch ++ [rows, columns])).run.run work := by
  have hne : values ≠ [] := by
    rintro rfl
    cases hfirst
  have htypes (value : Handle) (hmem : value ∈ values) :
      work.graph.valueType value = .ok ⟨.f32, ⟨[stack.rows, stack.columns]⟩⟩ := by
    obtain ⟨q, hq⟩ := List.mem_iff_getElem?.mp hmem
    exact (hvalues q value hq).type_eq
  have hjoined := @succeeds_concat work bindings given op (nodeName op "concat") values stack.rows
    stack.columns stack.element hne hvalues
  refine run_bind_congr_of_run (run_dimsOf (hvalues 0 first hfirst).type_eq) ?_
  refine run_bind_congr_of_run (run_extentAt rfl) ?_
  refine run_bind_congr_of_run (run_extentAt rfl) ?_
  refine run_bind_congr_of_succeeds (run_concatInWords htypes (hlength ▸ hrows)) hjoined ?_
  intro joined next hnext hholds
  rw [hlength] at hholds
  refine run_reshapeInWords hholds ?_ ?_
  · simpa [Nat.mul_assoc] using helements
  · simpa [product_append, ← hcount, Nat.mul_assoc] using helements

theorem run_productPerPositionInWords
    (hlhs : work.Holds bindings given lhs.value lhs.dims (lhs.stored x))
    (hrhs : work.Holds bindings given rhs.value rhs.dims (rhs.stored y))
    (hlhsCount : lhs.count = product batch ∨ lhs.isSingle)
    (hrhsCount : rhs.count = product batch ∨ rhs.isSingle)
    (hlhsWords : lhs.FitsWords bits) (hrhsWords : rhs.FitsWords bits)
    (hbatch : product batch < twoPow bits) (hrows : product batch * lhs.height < twoPow bits)
    (helements : product batch * lhs.height * rhs.width < twoPow bits) :
    (productPerPositionInWords bits op lhs rhs batch).run.run work =
      (productPerPosition op lhs rhs batch).run.run work := by
  unfold productPerPositionInWords productPerPosition
  rw [productInWords_eq hbatch]
  refine run_bind_congr_of_succeeds (run_matrixSourceInWords hlhs hlhsWords)
    (succeeds_matrixSource hlhs hlhsCount) ?_
  intro lhsSource afterLhs hafterLhs hlhsSource
  have hright := hrhs.mono hafterLhs
  refine run_bind_congr_of_succeeds (run_matrixSourceInWords hright hrhsWords)
    (succeeds_matrixSource hright hrhsCount) ?_
  intro rhsSource afterRhs hafterRhs hrhsSource
  have hgood (position : Nat) (hmem : position ∈ List.range (product batch)) (next : Workspace)
      (hnext : afterRhs.Computes next) :=
    @succeedsIff_productAt next bindings given op (nodeName op s!"matmul{position}") lhs rhs x y
      (product batch) position lhsSource rhsSource ((hlhsSource.mono hafterRhs).mono hnext)
      (hrhsSource.mono hnext) (List.mem_range.mp hmem)
  have hproducts := succeedsIff_mapM (fun hnext hholds => hholds.mono hnext) hgood
  refine run_bind_congr_of_succeeds (run_mapM_congr hgood ?_) hproducts ?_
  · intro position hmem next hnext
    exact run_productAtInWords ((hlhsSource.mono hafterRhs).mono hnext) (hrhsSource.mono hnext)
      (List.mem_range.mp hmem) hlhsWords hrhsWords
  · intro products afterProducts hafter hall
    cases products with
    | nil => rfl
    | cons first others =>
        exact @run_joinInWords bits afterProducts bindings given op batch (first :: others) first
          (MatrixStack.batchProduct (product batch) (lhs.matrices x) (rhs.matrices y)) rfl rfl
          (hall.length_eq.symm.trans List.length_range) (fun q value => rel_of_forall₂_range hall)
          hrows helements

/-! ## One right matrix -/

/-- The matrices of the left batch below one another, times the right matrix. -/
theorem run_foldedProductInWords {a : Handle} {next : Workspace} {units : Nat}
    (ha : next.Holds bindings given a (lhs.batch ++ [lhs.height, lhs.width]) (lhs.matrices x))
    (hrhs : next.Holds bindings given rhs.value rhs.dims (rhs.stored y)) (hrhsCount : rhs.count = 1)
    (hlhsWords : lhs.FitsWords bits) (hrhsWords : rhs.FitsWords bits)
    (helements : lhs.count * lhs.height * rhs.width < twoPow bits) :
    (do
      let matrix ← reshapeToInWords bits op a [lhs.count * lhs.height, lhs.width] "lhs_2d"
      let b ← rhs.toMatrixInWords bits op "rhs"
      let result ← build op fun graph => graph.matrixProduct (nodeName op "matmul") matrix b
      let columns ← extentAt op (← dimsOf op result) 1
      reshapeToInWords bits op result
        (List.replicate units 1 ++ lhs.batch ++ [lhs.height, columns]) "reshape").run.run next =
    (do
      let matrix ← reshapeTo op a [lhs.count * lhs.height, lhs.width] "lhs_2d"
      let b ← rhs.toMatrix op "rhs"
      let result ← build op fun graph => graph.matrixProduct (nodeName op "matmul") matrix b
      let columns ← extentAt op (← dimsOf op result) 1
      reshapeTo op result
        (List.replicate units 1 ++ lhs.batch ++ [lhs.height, columns]) "reshape").run.run next := by
  have hfolded : product [lhs.count * lhs.height, lhs.width] =
      product (lhs.batch ++ [lhs.height, lhs.width]) := by
    simp [product_append, BatchOperand.count, Nat.mul_assoc]
  have hdims : product (lhs.batch ++ [lhs.height, lhs.width]) < twoPow bits := by
    have hcells := hlhsWords.elements
    rw [← lhs.height_mul_width] at hcells
    simpa [product_append, BatchOperand.count] using hcells
  refine run_bind_congr_of_succeeds (run_reshapeToInWords ha hdims (hfolded ▸ hdims))
    (succeeds_reshapeTo ha hfolded) ?_
  intro matrix afterLhs hafterLhs hmatrix
  have hright := hrhs.mono hafterLhs
  refine run_bind_congr_of_succeeds (run_toMatrixInWords hright hrhsCount hrhsWords)
    (succeeds_toMatrix hright hrhsCount) ?_
  intro b afterRhs hafterRhs hb
  have hjoined := (hmatrix.as Tensor.Stacks.joined).mono hafterRhs
  have hproduct := @succeedsIff_matrixProduct afterRhs bindings given op (nodeName op "matmul")
    matrix b (lhs.matrices x).joined ((rhs.matrices y).matrix 0) hjoined rfl hb rfl
  refine run_bind_congr_of_succeeds rfl hproduct ?_
  intro result afterProduct hafterProduct hresult
  refine run_bind_congr_of_run (run_dimsOf hresult.type_eq) ?_
  refine run_bind_congr_of_run (run_extentAt rfl) ?_
  have hunfolded : product (List.replicate units 1 ++ lhs.batch ++ [lhs.height, rhs.width]) =
      lhs.count * lhs.height * rhs.width := by
    simp [product_append, BatchOperand.count, Nat.mul_assoc]
  have hcells : product [lhs.count * lhs.height, rhs.width] < twoPow bits := by
    simpa using helements
  exact run_reshapeToInWords hresult hcells (lt_of_eq_of_lt hunfolded helements)

theorem run_productWithSingleInWords
    (hlhs : work.Holds bindings given lhs.value lhs.dims (lhs.stored x))
    (hrhs : work.Holds bindings given rhs.value rhs.dims (rhs.stored y))
    (hrhsCount : rhs.count = 1) (hlhsWords : lhs.FitsWords bits) (hrhsWords : rhs.FitsWords bits)
    (hrows : lhs.count * lhs.height < twoPow bits)
    (helements : lhs.count * lhs.height * rhs.width < twoPow bits) :
    (productWithSingleInWords bits op lhs rhs).run.run work =
      (productWithSingle op lhs rhs).run.run work := by
  unfold productWithSingleInWords productWithSingle
  extract_lets axes rank units restInWords rest
  have hrest (a : Handle) (next : Workspace) (hnext : work.Computes next)
      (ha : next.Holds bindings given a (lhs.batch ++ [lhs.height, lhs.width]) (lhs.matrices x)) :
      (restInWords a).run.run next = (rest a).run.run next := by
    unfold restInWords rest
    have hextents : (if lhs.transposed = true then (lhs.columns, lhs.rows)
        else (lhs.rows, lhs.columns)) = (lhs.height, lhs.width) := by
      unfold BatchOperand.height BatchOperand.width
      split <;> rfl
    have hcount : lhs.countInWords bits = lhs.count := productInWords_eq hlhsWords.count
    rw [hextents]
    dsimp only
    rw [hcount, Word.mul_eq hrows]
    exact run_foldedProductInWords ha (hrhs.mono hnext) hrhsCount hlhsWords hrhsWords helements
  cases htransposed : lhs.transposed with
  | true =>
      obtain ⟨hheight, hwidth, hmatrices⟩ := BatchOperand.oriented_of_transposed htransposed x
      rw [hheight, hwidth, hmatrices] at hrest
      simp only [if_true]
      exact run_bind_congr_of_succeeds rfl (succeeds_swapLast hlhs) hrest
  | false =>
      obtain ⟨hheight, hwidth, hmatrices⟩ := BatchOperand.oriented_of_straight htransposed x
      rw [hheight, hwidth, hmatrices] at hrest
      simp only [Bool.false_eq_true, if_false]
      exact run_bind_congr_of_succeeds rfl (succeeds_pure hlhs) hrest

/-! ## Two batches -/

/-- Batches that differ, where broadcasting is asked for. -/
theorem run_broadcastProductInWords {refusal : LoadError}
    (hlhs : work.Holds bindings given lhs.value lhs.dims (lhs.stored x))
    (hrhs : work.Holds bindings given rhs.value rhs.dims (rhs.stored y))
    (hdiffer : lhs.batch ≠ rhs.batch) (hlhsWords : lhs.FitsWords bits)
    (hrhsWords : rhs.FitsWords bits) (hwords : lhs.ProductFitsWords bits rhs) :
    (if rhs.isSingle then productWithSingleInWords bits op lhs rhs
      else if lhs.isSingle then
        productPerPositionInWords bits op lhs rhs
          (List.replicate (lhs.batch.length - rhs.batch.length) 1 ++ rhs.batch)
      else throw refusal : Lowering Handle).run.run work =
    (if rhs.isSingle then productWithSingle op lhs rhs
      else if lhs.isSingle then
        productPerPosition op lhs rhs
          (List.replicate (lhs.batch.length - rhs.batch.length) 1 ++ rhs.batch)
      else throw refusal : Lowering Handle).run.run work := by
  obtain ⟨hbatch, hrows, helements⟩ := hwords
  rw [BatchOperand.productBatch, if_neg hdiffer] at hbatch hrows helements
  by_cases hrhsSingle : rhs.isSingle
  · rw [if_pos hrhsSingle, if_pos hrhsSingle]
    have hcount : product (List.replicate (rhs.batch.length - lhs.batch.length) 1 ++
        lhs.batch) = lhs.count := by
      simp [product_append, BatchOperand.count]
    rw [if_pos hrhsSingle, hcount] at hrows helements
    exact run_productWithSingleInWords hlhs hrhs (BatchOperand.count_of_isSingle hrhsSingle)
      hlhsWords hrhsWords hrows helements
  · rw [if_neg hrhsSingle] at hbatch hrows helements
    rw [if_neg hrhsSingle, if_neg hrhsSingle]
    by_cases hlhsSingle : lhs.isSingle
    · rw [if_pos hlhsSingle, if_pos hlhsSingle]
      have hcount : rhs.count =
          product (List.replicate (lhs.batch.length - rhs.batch.length) 1 ++ rhs.batch) := by
        simp [product_append, BatchOperand.count]
      exact run_productPerPositionInWords hlhs hrhs (.inr hlhsSingle) (.inl hcount) hlhsWords
        hrhsWords hbatch hrows helements
    · rw [if_neg hlhsSingle, if_neg hlhsSingle]

/-- A product of batched operands is lowered in words as without, while the counts are words. -/
theorem run_batchProductInWords {broadcast : Bool}
    (hlhs : work.Holds bindings given lhs.value lhs.dims (lhs.stored x))
    (hrhs : work.Holds bindings given rhs.value rhs.dims (rhs.stored y))
    (hlhsWords : lhs.FitsWords bits) (hrhsWords : rhs.FitsWords bits)
    (hwords : lhs.ProductFitsWords bits rhs) :
    (batchProductInWords bits op broadcast lhs rhs).run.run work =
      (batchProduct op broadcast lhs rhs).run.run work := by
  unfold batchProductInWords batchProduct
  extract_lets units restInWords rest
  by_cases hranks : lhs.batch.length ≠ rhs.batch.length ∧ ¬broadcast = true
  · rw [if_pos hranks, if_pos hranks]
    refine run_bind_congr rfl fun _ _ hrefused => ?_
    cases hrefused
  · rw [if_neg hranks, if_neg hranks]
    unfold restInWords rest
    by_cases hnone : lhs.batch = [] ∧ rhs.batch = []
    · rw [if_pos hnone, if_pos hnone]
      have hlhsCount : lhs.count = 1 := by rw [BatchOperand.count, hnone.1, product_nil]
      have hrhsCount : rhs.count = 1 := by rw [BatchOperand.count, hnone.2, product_nil]
      refine run_bind_congr_of_succeeds (run_toMatrixInWords hlhs hlhsCount hlhsWords)
        (succeeds_toMatrix hlhs hlhsCount) ?_
      intro a afterLhs hafterLhs ha
      exact run_bind_congr (run_toMatrixInWords (hrhs.mono hafterLhs) hrhsCount hrhsWords)
        fun _ _ _ => rfl
    · rw [if_neg hnone, if_neg hnone]
      by_cases hsame : lhs.batch = rhs.batch
      · rw [if_pos hsame, if_pos hsame]
        have hcount : rhs.count = product lhs.batch := by rw [hsame, BatchOperand.count]
        obtain ⟨hbatch, hrows, helements⟩ := hwords
        rw [BatchOperand.productBatch, if_pos hsame] at hbatch hrows helements
        exact run_productPerPositionInWords hlhs hrhs (.inl rfl) (.inl hcount) hlhsWords
          hrhsWords hbatch hrows helements
      · rw [if_neg hsame, if_neg hsame]
        by_cases hplain : ¬broadcast = true
        · rw [if_pos hplain, if_pos hplain]
        · rw [if_neg hplain, if_neg hplain]
          exact run_broadcastProductInWords hlhs hrhs hsame hlhsWords hrhsWords hwords

end Lowering
end NetImport
