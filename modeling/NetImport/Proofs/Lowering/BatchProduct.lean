import NetImport.Proofs.Lowering.Stacks

/-!
# The product of batched operands

A batched operand is a stack of matrices, each transposed if it says so.  All ways of
multiplying two of them come to the stack of the products of their matrices, where an
operand with one matrix lends it to every position of the other.
-/

namespace NetImport

theorem rel_of_forall₂_range {β : Type} {R : Nat → β → Prop} {count : Nat} {ys : List β}
    (hall : List.Forall₂ R (List.range count) ys) {index : Nat} {y : β}
    (hy : ys[index]? = some y) :
    R index y := by
  obtain ⟨hlength, hget⟩ := List.forall₂_iff_get.mp hall
  obtain ⟨hindex, rfl⟩ := List.getElem?_eq_some_iff.mp hy
  have hrel := hget index (hlength ▸ hindex) hindex
  simpa using hrel

namespace MatrixStack

/-- The matrix that stands at a position of a batch: a stack of one repeats it. -/
def pick (stack : MatrixStack) (index : Nat) : Nat := if stack.count = 1 then 0 else index

theorem pick_of_lt {stack : MatrixStack} {index : Nat} (hindex : index < stack.count) :
    stack.pick index = index := by
  unfold pick
  split
  · omega
  · rfl

/-- The products at the positions of a batch. -/
def batchProduct (count : Nat) (lhs rhs : MatrixStack) : MatrixStack where
  count := count
  rows := lhs.rows
  columns := rhs.columns
  element := fun q i j =>
    dotProduct lhs.columns (fun k => lhs.element (lhs.pick q) i k)
      fun k => rhs.element (rhs.pick q) k j

theorem matrix_batchProduct (count : Nat) (lhs rhs : MatrixStack) (index : Nat) :
    (batchProduct count lhs rhs).matrix index =
      (lhs.matrix (lhs.pick index)).product (rhs.matrix (rhs.pick index)) :=
  rfl

end MatrixStack

/-- The rows of all left matrices, multiplied by one right matrix at once. -/
theorem Tensor.Stacks.batchProduct {tensor : Tensor} {dims : List Nat} {lhs rhs : MatrixStack}
    (hstacks : tensor.Stacks dims (lhs.joined.product (rhs.matrix 0)))
    (hrhsCount : rhs.count = 1) :
    tensor.Stacks dims (MatrixStack.batchProduct lhs.count lhs rhs) := by
  refine (hstacks.split rfl rfl).congr rfl rfl rfl fun q i j hq hi hj => ?_
  obtain ⟨hblock, hrow⟩ := @mul_add_div_mod q _ _ hi
  have hleft : lhs.pick q = q := MatrixStack.pick_of_lt hq
  have hright : rhs.pick q = 0 := if_pos hrhsCount
  simp only [MatrixStack.product, MatrixStack.joined, MatrixStack.matrix,
    MatrixStack.batchProduct, hblock, hrow, hleft, hright]

namespace Lowering
namespace BatchOperand

/-- The extents of the matrices that enter the product. -/
def height (operand : BatchOperand) : Nat :=
  if operand.transposed then operand.columns else operand.rows

def width (operand : BatchOperand) : Nat :=
  if operand.transposed then operand.rows else operand.columns

def dims (operand : BatchOperand) : List Nat := operand.batch ++ [operand.rows, operand.columns]

/-- The stack that the value of an operand holds. -/
def stored (operand : BatchOperand) (element : Nat → Nat → Nat → Float32) : MatrixStack :=
  ⟨operand.count, operand.rows, operand.columns, element⟩

/-- The stack of the matrices that enter the product. -/
def matrices (operand : BatchOperand) (element : Nat → Nat → Nat → Float32) : MatrixStack :=
  ⟨operand.count, operand.height, operand.width,
    if operand.transposed then fun q i j => element q j i else element⟩

theorem oriented_of_transposed {operand : BatchOperand} (htransposed : operand.transposed = true)
    (element : Nat → Nat → Nat → Float32) :
    operand.height = operand.columns ∧ operand.width = operand.rows ∧
      operand.matrices element = (operand.stored element).transposed := by
  simp [height, width, matrices, stored, MatrixStack.transposed, htransposed]

theorem oriented_of_straight {operand : BatchOperand} (hstraight : operand.transposed = false)
    (element : Nat → Nat → Nat → Float32) :
    operand.height = operand.rows ∧ operand.width = operand.columns ∧
      operand.matrices element = operand.stored element := by
  simp [height, width, matrices, stored, hstraight]

theorem count_of_isSingle {operand : BatchOperand} (hsingle : operand.isSingle) :
    operand.count = 1 := by
  have hunits : operand.batch = List.replicate operand.batch.length 1 :=
    List.eq_replicate_iff.mpr ⟨rfl, fun extent hextent => by
      simpa using List.all_eq_true.mp hsingle extent hextent⟩
  rw [count, hunits, product_replicate_one]

end BatchOperand

variable {work : Workspace} {bindings : Bindings} {given : Prop} {op : Operator}
  {name side : String} {value matrix : Handle} {operand lhs rhs : BatchOperand}
  {element x y : Nat → Nat → Nat → Float32} {batch : List Nat}

/-! ## Single matrices -/

theorem succeeds_oriented {index : Nat}
    (hmatrix : work.Holds bindings given matrix [operand.rows, operand.columns]
      ((operand.stored element).matrix index)) :
    Succeeds (operand.oriented op matrix name) work fun value last =>
      last.Holds bindings given value [operand.height, operand.width]
        ((operand.matrices element).matrix index) := by
  unfold BatchOperand.oriented
  cases htransposed : operand.transposed with
  | true =>
      obtain ⟨hheight, hwidth, hmatrices⟩ := BatchOperand.oriented_of_transposed htransposed element
      rw [hheight, hwidth, hmatrices]
      exact @succeeds_swapLast _ _ _ _ _ _ [] _ _ _ hmatrix
  | false =>
      obtain ⟨hheight, hwidth, hmatrices⟩ := BatchOperand.oriented_of_straight htransposed element
      rw [hheight, hwidth, hmatrices]
      exact succeeds_pure hmatrix

theorem succeeds_toMatrix (hoperand : work.Holds bindings given operand.value operand.dims
      (operand.stored element)) (hcount : operand.count = 1) :
    Succeeds (operand.toMatrix op side) work fun value last =>
      last.Holds bindings given value [operand.height, operand.width]
        ((operand.matrices element).matrix 0) := by
  have hproduct : product [operand.rows, operand.columns] = product operand.dims := by
    have hbatch : product operand.batch = 1 := hcount
    simp [BatchOperand.dims, product_append, hbatch]
  refine succeedsIff_bind_of_succeeds (succeeds_reshapeTo hoperand hproduct) ?_
  intro matrix next hnext hmatrix
  refine succeeds_oriented (hmatrix.as fun hstacks => ?_)
  refine hstacks.congr hcount rfl rfl fun q i j hq hi hj => ?_
  obtain rfl : q = 0 := by
    have hone : q < 1 := hcount ▸ hq
    omega
  rfl

/-! ## Matrices of a batch -/

theorem succeeds_flattened (hoperand : work.Holds bindings given operand.value operand.dims
      (operand.stored element)) :
    Succeeds (operand.flattened op side) work fun value last =>
      last.Holds bindings given value [operand.count, operand.rows, operand.columns]
        (operand.stored element) := by
  refine succeeds_reshapeTo hoperand ?_
  simp [BatchOperand.dims, BatchOperand.count, product_append]

theorem succeeds_matrixAt {flat : Handle} {position : Nat}
    (hflat : work.Holds bindings given flat [operand.count, operand.rows, operand.columns]
      (operand.stored element)) (hposition : position < operand.count) :
    Succeeds (operand.matrixAt op flat position side) work fun value last =>
      last.Holds bindings given value [operand.height, operand.width]
        ((operand.matrices element).matrix position) := by
  refine succeedsIff_bind_of_succeeds (succeeds_slice hflat hposition) ?_
  intro slice next hnext hslice
  refine succeedsIff_bind_of_succeeds (succeeds_reshape hslice (by simp)) ?_
  intro matrix last hlast hmatrix
  exact succeeds_oriented hmatrix

/-- A source gives the matrices of an operand to the positions of a batch. -/
def MatrixSource.Supplies (work : Workspace) (bindings : Bindings) (given : Prop)
    (operand : BatchOperand) (element : Nat → Nat → Nat → Float32) (count : Nat) :
    MatrixSource → Prop
  | .sliced flat => operand.count = count ∧
      work.Holds bindings given flat [operand.count, operand.rows, operand.columns]
        (operand.stored element)
  | .shared matrix => operand.count = 1 ∧
      work.Holds bindings given matrix [operand.height, operand.width]
        ((operand.matrices element).matrix 0)

theorem MatrixSource.Supplies.mono {next : Workspace} {count : Nat} {source : MatrixSource}
    (hsource : source.Supplies work bindings given operand element count)
    (hcomputes : work.Computes next) :
    source.Supplies next bindings given operand element count := by
  cases source with
  | sliced flat => exact ⟨hsource.1, hsource.2.mono hcomputes⟩
  | shared matrix => exact ⟨hsource.1, hsource.2.mono hcomputes⟩

theorem succeeds_matrixSource {count : Nat}
    (hoperand : work.Holds bindings given operand.value operand.dims (operand.stored element))
    (hcount : operand.count = count ∨ operand.isSingle) :
    Succeeds (matrixSource op operand count side) work fun source last =>
      source.Supplies last bindings given operand element count := by
  unfold matrixSource
  split
  · next hshared =>
      have hone := BatchOperand.count_of_isSingle hshared.1
      refine succeedsIff_bind_of_succeeds (succeeds_toMatrix hoperand hone) ?_
      intro matrix next hnext hmatrix
      exact succeeds_pure ⟨hone, hmatrix⟩
  · next hsliced =>
      have hsame : operand.count = count := by
        by_contra hother
        exact hsliced ⟨hcount.resolve_left hother, hother⟩
      refine succeedsIff_bind_of_succeeds (succeeds_flattened hoperand) ?_
      intro flat next hnext hflat
      exact succeeds_pure ⟨hsame, hflat⟩

theorem succeeds_matrixFrom {count position : Nat} {source : MatrixSource}
    (hsource : source.Supplies work bindings given operand element count)
    (hposition : position < count) :
    Succeeds (matrixFrom op operand source position side) work fun value last =>
      last.Holds bindings given value [operand.height, operand.width]
        ((operand.matrices element).matrix ((operand.matrices element).pick position)) := by
  cases source with
  | sliced flat =>
      obtain ⟨rfl, hflat⟩ := hsource
      have hpick : (operand.matrices element).pick position = position :=
        MatrixStack.pick_of_lt hposition
      rw [hpick]
      exact succeeds_matrixAt hflat hposition
  | shared matrix =>
      obtain ⟨hone, hmatrix⟩ := hsource
      have hpick : (operand.matrices element).pick position = 0 := if_pos hone
      rw [hpick]
      exact succeeds_pure hmatrix

theorem succeedsIff_productAt {count position : Nat} {lhsSource rhsSource : MatrixSource}
    (hlhs : lhsSource.Supplies work bindings given lhs x count)
    (hrhs : rhsSource.Supplies work bindings given rhs y count) (hposition : position < count) :
    SucceedsIff
      (do
        let a ← matrixFrom op lhs lhsSource position "lhs"
        let b ← matrixFrom op rhs rhsSource position "rhs"
        build op fun graph => graph.matrixProduct name a b)
      work (lhs.width = rhs.height) fun value last =>
        last.Holds bindings given value [lhs.height, rhs.width]
          ((MatrixStack.batchProduct count (lhs.matrices x) (rhs.matrices y)).matrix position) := by
  refine succeedsIff_bind_of_succeeds (succeeds_matrixFrom hlhs hposition) ?_
  intro a next hnext ha
  refine succeedsIff_bind_of_succeeds (succeeds_matrixFrom (hrhs.mono hnext) hposition) ?_
  intro b last hlast hb
  rw [MatrixStack.matrix_batchProduct]
  exact @succeedsIff_matrixProduct last bindings given op name a b ((lhs.matrices x).matrix _)
    ((rhs.matrices y).matrix _) (ha.mono hlast) rfl hb rfl

/-- The matrices at the positions of a batch, joined to one value. -/
theorem succeedsIff_join {values : List Handle} {stack : MatrixStack}
    (hcount : stack.count = product batch) (hlength : values.length = stack.count)
    (hvalues : ∀ (q : Nat) (value : Handle), values[q]? = some value →
      work.Holds bindings given value [stack.rows, stack.columns] (stack.matrix q)) :
    SucceedsIff
      (match values with
      | [] => throw (shapeError op "batch dims have no elements")
      | first :: _ => do
          let dims ← dimsOf op first
          let rows ← extentAt op dims 0
          let columns ← extentAt op dims 1
          let joined ← build op fun graph => graph.concat (nodeName op "concat") values 0
          build op fun graph => graph.reshape op.label joined (batch ++ [rows, columns]))
      work (product batch ≠ 0) fun value last =>
        last.Holds bindings given value (batch ++ [stack.rows, stack.columns]) stack := by
  cases values with
  | nil =>
      refine (succeedsIff_throw _).of_iff (iff_of_false id fun hpositive => hpositive ?_)
      rw [← hcount, ← hlength, List.length_nil]
  | cons first others =>
      have hpositive : product batch ≠ 0 := by
        rw [List.length_cons] at hlength
        omega
      have hfirst := hvalues 0 first rfl
      have hjoined := @succeeds_concat work bindings given op (nodeName op "concat")
        (first :: others) stack.rows stack.columns stack.element (List.cons_ne_nil _ _) hvalues
      refine SucceedsIff.of_iff ?_ (iff_of_true trivial hpositive)
      refine succeedsIff_bind_of_run (run_dimsOf hfirst.type_eq) ?_
      refine succeedsIff_bind_of_run (run_extentAt rfl) ?_
      refine succeedsIff_bind_of_run (run_extentAt rfl) ?_
      refine succeedsIff_bind_of_succeeds hjoined ?_
      intro joined next hnext hholds
      rw [hlength] at hholds
      refine succeeds_reshape hholds ?_
      simp [product_append, ← hcount, Nat.mul_assoc]

theorem succeedsIff_productPerPosition
    (hlhs : work.Holds bindings given lhs.value lhs.dims (lhs.stored x))
    (hrhs : work.Holds bindings given rhs.value rhs.dims (rhs.stored y))
    (hlhsCount : lhs.count = product batch ∨ lhs.isSingle)
    (hrhsCount : rhs.count = product batch ∨ rhs.isSingle) :
    SucceedsIff (productPerPosition op lhs rhs batch) work
      (lhs.width = rhs.height ∧ product batch ≠ 0) fun value last =>
        last.Holds bindings given value (batch ++ [lhs.height, rhs.width])
          (MatrixStack.batchProduct (product batch) (lhs.matrices x) (rhs.matrices y)) := by
  refine succeedsIff_bind_of_succeeds (succeeds_matrixSource hlhs hlhsCount) ?_
  intro lhsSource afterLhs hafterLhs hlhsSource
  refine succeedsIff_bind_of_succeeds (succeeds_matrixSource (hrhs.mono hafterLhs) hrhsCount) ?_
  intro rhsSource afterRhs hafterRhs hrhsSource
  have hproducts := @succeedsIff_mapM _ _ afterRhs (lhs.width = rhs.height)
    (fun position => do
      let a ← matrixFrom op lhs lhsSource position "lhs"
      let b ← matrixFrom op rhs rhsSource position "rhs"
      build op fun graph => graph.matrixProduct (nodeName op s!"matmul{position}") a b)
    _ (fun hnext hholds => hholds.mono hnext) (List.range (product batch))
    fun position hmem next hnext =>
      succeedsIff_productAt ((hlhsSource.mono hafterRhs).mono hnext) (hrhsSource.mono hnext)
        (List.mem_range.mp hmem)
  have hboth := succeedsIff_bind hproducts fun products afterProducts hafter hall =>
    @succeedsIff_join afterProducts bindings given op batch products
      (MatrixStack.batchProduct (product batch) (lhs.matrices x) (rhs.matrices y)) rfl
      (hall.length_eq.symm.trans List.length_range) fun q value => rel_of_forall₂_range hall
  refine hboth.of_iff ?_
  rw [← List.length_eq_zero_iff, List.length_range]
  omega

/-! ## One right matrix -/

theorem succeedsIff_productWithSingle
    (hlhs : work.Holds bindings given lhs.value lhs.dims (lhs.stored x))
    (hrhs : work.Holds bindings given rhs.value rhs.dims (rhs.stored y))
    (hrhsCount : rhs.count = 1) :
    SucceedsIff (productWithSingle op lhs rhs) work (lhs.width = rhs.height) fun value last =>
      last.Holds bindings given value
        (List.replicate (rhs.batch.length - lhs.batch.length) 1 ++ lhs.batch ++
          [lhs.height, rhs.width])
        (MatrixStack.batchProduct lhs.count (lhs.matrices x) (rhs.matrices y)) := by
  unfold productWithSingle
  extract_lets axes rank units rest
  have hrest (a : Handle) (next : Workspace) (hnext : work.Computes next)
      (ha : next.Holds bindings given a (lhs.batch ++ [lhs.height, lhs.width]) (lhs.matrices x)) :
      SucceedsIff (rest a) next (lhs.width = rhs.height) fun value last =>
        last.Holds bindings given value
          (List.replicate (rhs.batch.length - lhs.batch.length) 1 ++ lhs.batch ++
            [lhs.height, rhs.width])
          (MatrixStack.batchProduct lhs.count (lhs.matrices x) (rhs.matrices y)) := by
    unfold rest
    have hextents : (if lhs.transposed = true then (lhs.columns, lhs.rows)
        else (lhs.rows, lhs.columns)) = (lhs.height, lhs.width) := by
      unfold BatchOperand.height BatchOperand.width
      split <;> rfl
    rw [hextents]
    dsimp only
    have hfolded : product [lhs.count * lhs.height, lhs.width] =
        product (lhs.batch ++ [lhs.height, lhs.width]) := by
      simp [product_append, BatchOperand.count, Nat.mul_assoc]
    refine succeedsIff_bind_of_succeeds (succeeds_reshapeTo ha hfolded) ?_
    intro matrix afterLhs hafterLhs hmatrix
    refine succeedsIff_bind_of_succeeds
      (succeeds_toMatrix ((hrhs.mono hnext).mono hafterLhs) hrhsCount) ?_
    intro b afterRhs hafterRhs hb
    have hjoined := (hmatrix.as Tensor.Stacks.joined).mono hafterRhs
    have hresult := @succeedsIff_matrixProduct afterRhs bindings given op (nodeName op "matmul")
      matrix b (lhs.matrices x).joined ((rhs.matrices y).matrix 0) hjoined rfl hb rfl
    refine (succeedsIff_bind hresult fun result afterProduct hafterProduct hresult => ?_).of_iff
      (and_iff_left trivial)
    refine succeedsIff_bind_of_run (run_dimsOf hresult.type_eq) ?_
    refine succeedsIff_bind_of_run (run_extentAt rfl) ?_
    have hunfolded : product (units ++ lhs.batch ++ [lhs.height, rhs.width]) =
        product [lhs.count * lhs.height, rhs.width] := by
      simp [units, product_append, BatchOperand.count, Nat.mul_assoc]
    exact succeeds_reshapeTo (hresult.as fun hstacks => hstacks.batchProduct hrhsCount) hunfolded
  cases htransposed : lhs.transposed with
  | true =>
      obtain ⟨hheight, hwidth, hmatrices⟩ := BatchOperand.oriented_of_transposed htransposed x
      rw [hheight, hwidth, hmatrices] at hrest ⊢
      simp only [if_true]
      exact succeedsIff_bind_of_succeeds (succeeds_swapLast hlhs) hrest
  | false =>
      obtain ⟨hheight, hwidth, hmatrices⟩ := BatchOperand.oriented_of_straight htransposed x
      rw [hheight, hwidth, hmatrices] at hrest ⊢
      simp only [Bool.false_eq_true, if_false]
      exact succeedsIff_bind_of_succeeds (succeeds_pure hlhs) hrest

/-! ## Two batches -/

namespace BatchOperand

/-- The batch of a product: a single matrix takes the batch of the other operand, with
units in front where its own batch is longer. -/
def productBatch (lhs rhs : BatchOperand) : List Nat :=
  if lhs.batch = rhs.batch then lhs.batch
  else if rhs.isSingle then
    List.replicate (rhs.batch.length - lhs.batch.length) 1 ++ lhs.batch
  else List.replicate (lhs.batch.length - rhs.batch.length) 1 ++ rhs.batch

/-- The batches are equal, or broadcasting is asked for and one operand is a single
matrix. -/
def Combine (broadcast : Bool) (lhs rhs : BatchOperand) : Prop :=
  lhs.batch = rhs.batch ∨ broadcast = true ∧ (lhs.isSingle ∨ rhs.isSingle)

/-- Two operands have a product.  The rows of all left matrices are multiplied at once when
the right operand is a single matrix, which needs no position to start from. -/
def Multiplies (broadcast : Bool) (lhs rhs : BatchOperand) : Prop :=
  lhs.width = rhs.height ∧ lhs.Combine broadcast rhs ∧
    (product (lhs.productBatch rhs) ≠ 0 ∨ lhs.batch ≠ rhs.batch ∧ rhs.isSingle)

end BatchOperand

/-- A value is the product of two operands with some elements. -/
def HoldsProduct (work : Workspace) (bindings : Bindings) (given : Prop)
    (lhs rhs : BatchOperand) (x y : Nat → Nat → Nat → Float32) (value : Handle) : Prop :=
  work.Holds bindings given value (lhs.productBatch rhs ++ [lhs.height, rhs.width])
    (MatrixStack.batchProduct (product (lhs.productBatch rhs)) (lhs.matrices x) (rhs.matrices y))

theorem succeedsIff_plainProduct
    (hlhs : work.Holds bindings given lhs.value lhs.dims (lhs.stored x))
    (hrhs : work.Holds bindings given rhs.value rhs.dims (rhs.stored y))
    (hlhsBatch : lhs.batch = []) (hrhsBatch : rhs.batch = []) :
    SucceedsIff
      (do
        let a ← lhs.toMatrix op "lhs"
        let b ← rhs.toMatrix op "rhs"
        build op fun graph => graph.matrixProduct name a b)
      work (lhs.width = rhs.height) fun value last =>
        HoldsProduct last bindings given lhs rhs x y value := by
  have hlhsCount : lhs.count = 1 := by rw [BatchOperand.count, hlhsBatch, product_nil]
  have hrhsCount : rhs.count = 1 := by rw [BatchOperand.count, hrhsBatch, product_nil]
  have hbatch : lhs.productBatch rhs = [] := by
    rw [BatchOperand.productBatch, hlhsBatch, hrhsBatch, if_pos rfl]
  refine succeedsIff_bind_of_succeeds (succeeds_toMatrix hlhs hlhsCount) ?_
  intro a afterLhs hafterLhs ha
  refine succeedsIff_bind_of_succeeds (succeeds_toMatrix (hrhs.mono hafterLhs) hrhsCount) ?_
  intro b afterRhs hafterRhs hb
  have hresult := @succeedsIff_matrixProduct afterRhs bindings given op name a b
    ((lhs.matrices x).matrix 0) ((rhs.matrices y).matrix 0) (ha.mono hafterRhs) rfl hb rfl
  refine hresult.mono fun _ _ hholds => ?_
  rw [HoldsProduct, hbatch]
  have hlhsPick (q : Nat) : (lhs.matrices x).pick q = 0 := if_pos hlhsCount
  have hrhsPick (q : Nat) : (rhs.matrices y).pick q = 0 := if_pos hrhsCount
  refine hholds.as fun hstacks => hstacks.congr rfl rfl rfl fun q i j hq hi hj => ?_
  simp only [MatrixStack.product, MatrixStack.matrix, MatrixStack.batchProduct, hlhsPick, hrhsPick]

/-- Batches that differ, where broadcasting is asked for. -/
theorem succeedsIff_broadcastProduct {refusal : LoadError}
    (hlhs : work.Holds bindings given lhs.value lhs.dims (lhs.stored x))
    (hrhs : work.Holds bindings given rhs.value rhs.dims (rhs.stored y))
    (hdiffer : lhs.batch ≠ rhs.batch) :
    SucceedsIff
      (if rhs.isSingle then productWithSingle op lhs rhs
      else if lhs.isSingle then
        productPerPosition op lhs rhs
          (List.replicate (lhs.batch.length - rhs.batch.length) 1 ++ rhs.batch)
      else throw refusal)
      work (lhs.Multiplies true rhs) fun value last =>
        HoldsProduct last bindings given lhs rhs x y value := by
  unfold BatchOperand.Multiplies
  split
  · next hrhsSingle =>
      have hbatch : lhs.productBatch rhs =
          List.replicate (rhs.batch.length - lhs.batch.length) 1 ++ lhs.batch := by
        rw [BatchOperand.productBatch, if_neg hdiffer, if_pos hrhsSingle]
      have hcount : product (lhs.productBatch rhs) = lhs.count := by
        simp [hbatch, product_append, BatchOperand.count]
      unfold HoldsProduct
      rw [hcount, hbatch]
      have hrhsCount := BatchOperand.count_of_isSingle hrhsSingle
      refine (succeedsIff_productWithSingle hlhs hrhs hrhsCount).of_iff ?_
      simp [BatchOperand.Combine, hdiffer, hrhsSingle]
  · next hrhsBatched =>
      have hbatch : lhs.productBatch rhs =
          List.replicate (lhs.batch.length - rhs.batch.length) 1 ++ rhs.batch := by
        rw [BatchOperand.productBatch, if_neg hdiffer, if_neg hrhsBatched]
      have hcount : rhs.count = product (lhs.productBatch rhs) := by
        simp [hbatch, product_append, BatchOperand.count]
      split
      · next hlhsSingle =>
          unfold HoldsProduct
          rw [← hbatch]
          refine (succeedsIff_productPerPosition hlhs hrhs (.inr hlhsSingle)
            (.inl hcount)).of_iff ?_
          simp [BatchOperand.Combine, hlhsSingle, hrhsBatched]
      · next hlhsBatched =>
          refine (succeedsIff_throw _).of_iff ?_
          simp [BatchOperand.Combine, hdiffer, hlhsBatched, hrhsBatched]

theorem succeedsIff_batchProduct {broadcast : Bool}
    (hlhs : work.Holds bindings given lhs.value lhs.dims (lhs.stored x))
    (hrhs : work.Holds bindings given rhs.value rhs.dims (rhs.stored y)) :
    SucceedsIff (batchProduct op broadcast lhs rhs) work (lhs.Multiplies broadcast rhs)
      fun value last => HoldsProduct last bindings given lhs rhs x y value := by
  unfold batchProduct
  extract_lets units rest
  split
  · next hranks =>
      have hdiffer : lhs.batch ≠ rhs.batch := fun hsame => hranks.1 (congrArg List.length hsame)
      refine (succeedsIff_throw_bind _).of_iff ?_
      simp [BatchOperand.Multiplies, BatchOperand.Combine, hdiffer, hranks.2]
  · unfold rest
    split
    · next hnone =>
        refine (succeedsIff_plainProduct hlhs hrhs hnone.1 hnone.2).of_iff ?_
        simp [BatchOperand.Multiplies, BatchOperand.Combine, BatchOperand.productBatch, hnone.1,
          hnone.2]
    · split
      · next hsame =>
          have hbatch : lhs.productBatch rhs = lhs.batch := if_pos hsame
          have hcount : rhs.count = product lhs.batch := by rw [hsame, BatchOperand.count]
          unfold HoldsProduct BatchOperand.Multiplies
          rw [hbatch]
          refine (succeedsIff_productPerPosition hlhs hrhs (.inl rfl) (.inl hcount)).of_iff ?_
          simp [BatchOperand.Combine, hsame]
      · next hdiffer =>
          split
          · next hplain =>
              refine (succeedsIff_throw _).of_iff ?_
              simp [BatchOperand.Multiplies, BatchOperand.Combine, hdiffer, hplain]
          · next hbroadcast =>
              obtain rfl : broadcast = true := not_not.mp hbroadcast
              exact succeedsIff_broadcastProduct hlhs hrhs hdiffer

end Lowering
end NetImport
