import NetImport.Proofs.Lowering.Words

/-!
# Flattened matrix products

An operand of any rank is a matrix once its axes are split in two, and is read by rows as
that matrix.  The lowerings that flatten their operands come to the product of these
matrices, with a bias for each column where there is one.  In words they do the same while the
extents of the matrices and the counts of their elements are words.
-/

namespace NetImport

/-- What a value is known to hold under bindings that are `given` to evaluate it. -/
theorem Workspace.exists_holds {work : Workspace} {bindings : Bindings} {given : Prop}
    {value : Handle} {dims : List Nat} {tensor : Tensor} {rows columns : Nat}
    (htyped : work.graph.valueType value = .ok ⟨.f32, ⟨dims⟩⟩)
    (hproduct : product dims = rows * columns)
    (hvalue : given → work.HasValue bindings value ⟨.f32, ⟨dims⟩⟩ tensor) :
    ∃ element, (given → tensor.Stacks dims ⟨1, rows, columns, element⟩) ∧
      work.Holds bindings given value dims ⟨1, rows, columns, element⟩ := by
  by_cases hgiven : given
  · have htensor := hvalue hgiven
    rw [← Nat.one_mul (rows * columns)] at hproduct
    obtain ⟨element, hstacks⟩ := Tensor.exists_stacks_of_product htensor.type_eq hproduct
    exact ⟨element, fun _ => hstacks, htyped, fun _ => ⟨tensor, htensor.evaluates, hstacks⟩⟩
  · exact ⟨fun _ _ _ => 0.0, fun h => absurd h hgiven, htyped, fun h => absurd h hgiven⟩

/-- The elements that a value stands for, read by rows. -/
theorem Workspace.Holds.exists_rows {work : Workspace} {bindings : Bindings} {given : Prop}
    {value : Handle} {dims : List Nat} {rows columns : Nat} {element : Nat → Nat → Nat → Float32}
    (hholds : work.Holds bindings given value dims ⟨1, rows, columns, element⟩)
    (hgiven : given) :
    ∃ result, work.HasValue bindings value ⟨.f32, ⟨dims⟩⟩ result ∧
      ∀ i < rows, ∀ j < columns, result.rowMajor? columns i j = some (element 0 i j) := by
  obtain ⟨result, hresult, hstacks⟩ := hholds.evaluates hgiven
  exact ⟨result, ⟨hresult, hstacks.type_eq⟩, fun i hi j hj => hstacks.rowMajor?_eq hi hj⟩

namespace Lowering

/-- An operand that is split into a matrix at an axis, and transposed if it says so. -/
structure FlatOperand where
  value : Handle
  dims : List Nat
  axis : Nat
  transposed : Bool

namespace FlatOperand

variable {operand : FlatOperand} {element : Nat → Nat → Nat → Float32}

/-- The axes before the split. -/
def outer (operand : FlatOperand) : List Nat := operand.dims.take operand.axis

def rows (operand : FlatOperand) : Nat := product operand.outer

def columns (operand : FlatOperand) : Nat := product (operand.dims.drop operand.axis)

/-- The extents of the matrix that enters the product. -/
def height (operand : FlatOperand) : Nat :=
  if operand.transposed then operand.columns else operand.rows

def width (operand : FlatOperand) : Nat :=
  if operand.transposed then operand.rows else operand.columns

/-- There are axes on both sides of the split. -/
def Splits (operand : FlatOperand) : Prop :=
  1 ≤ operand.axis ∧ operand.axis < operand.dims.length

instance : Decidable operand.Splits := inferInstanceAs (Decidable (_ ∧ _))

/-- The extents of the matrix and the count of its elements are words.  The count says nothing
of one extent where the other is zero. -/
def FitsWords (bits : Nat) (operand : FlatOperand) : Prop :=
  operand.rows < twoPow bits ∧ operand.columns < twoPow bits ∧ operand.rows * operand.columns < twoPow bits

instance (bits : Nat) (operand : FlatOperand) : Decidable (operand.FitsWords bits) :=
  inferInstanceAs (Decidable (_ ∧ _))

/-- An element of the matrix that enters the product. -/
def entry? (operand : FlatOperand) (tensor : Tensor) (i j : Nat) : Option Float32 :=
  if operand.transposed then tensor.rowMajor? operand.columns j i
  else tensor.rowMajor? operand.columns i j

def type (operand : FlatOperand) : TensorType := ⟨.f32, ⟨operand.dims⟩⟩

/-- An operator has the operand at one of its inputs, and the axis for an argument. -/
structure IsInput (operand : FlatOperand) (work : Workspace) (op : Operator) (index : Nat)
    (arg : String) : Prop extends work.HasInput op index operand.value operand.type where
  axis_eq : op.naturalArg arg 1 = .ok operand.axis

/-- The matrix that the value of an operand holds. -/
def stored (operand : FlatOperand) (element : Nat → Nat → Nat → Float32) : MatrixStack :=
  ⟨1, operand.rows, operand.columns, element⟩

/-- The matrix that enters the product. -/
def matrix (operand : FlatOperand) (element : Nat → Nat → Nat → Float32) : MatrixStack :=
  ⟨1, operand.height, operand.width,
    if operand.transposed then fun q i j => element q j i else element⟩

theorem product_dims (operand : FlatOperand) :
    product operand.dims = operand.rows * operand.columns := by
  rw [rows, columns, outer, ← product_append, List.take_append_drop]

theorem matrix_of_transposed (htransposed : operand.transposed = true) :
    operand.matrix element = (operand.stored element).transposed := by
  simp [matrix, stored, height, width, MatrixStack.transposed, htransposed]

theorem matrix_of_straight (hstraight : operand.transposed = false) :
    operand.matrix element = operand.stored element := by
  simp [matrix, stored, height, width, hstraight]

theorem entry?_eq_some {tensor : Tensor} {i j : Nat}
    (hstacks : tensor.Stacks operand.dims (operand.stored element))
    (hi : i < operand.height) (hj : j < operand.width) :
    operand.entry? tensor i j = some ((operand.matrix element).element 0 i j) := by
  unfold height at hi
  unfold width at hj
  unfold entry? matrix
  cases htransposed : operand.transposed with
  | true =>
      rw [htransposed, if_pos rfl] at hi hj
      exact hstacks.rowMajor?_eq hj hi
  | false =>
      rw [htransposed, if_neg Bool.false_ne_true] at hi hj
      exact hstacks.rowMajor?_eq hi hj

end FlatOperand

variable {bits : Nat} {work : Workspace} {bindings : Bindings} {given : Prop} {op : Operator}
  {arg suffix : String} {operand lhs rhs x w : FlatOperand} {bias : Handle}
  {element y z r : Nat → Nat → Nat → Float32}

/-! ## Steps -/

theorem succeedsIff_flattenAt (hvalue : work.Holds bindings given operand.value operand.dims
      (operand.stored element)) :
    SucceedsIff (flattenAt op operand.value arg operand.axis suffix) work operand.Splits
      fun value last => last.Holds bindings given value [operand.rows, operand.columns]
        (operand.stored element) := by
  have hproduct : product [operand.rows, operand.columns] = product operand.dims := by
    rw [operand.product_dims]
    simp
  refine succeedsIff_bind_of_run (run_dimsOf hvalue.type_eq) ?_
  dsimp only [TensorType.dims]
  by_cases hsplits : operand.Splits
  · have haxis : ¬(operand.axis = 0 ∨ operand.dims.length ≤ operand.axis) := by
      have hbetween := hsplits
      unfold FlatOperand.Splits at hbetween
      omega
    have hextents : (matrixDims op operand.dims operand.axis).run.run work =
        (.ok [operand.rows, operand.columns], work) := by
      rw [matrixDims, run_bind, run_splitAt (Nat.le_of_lt hsplits.2)]
      rfl
    rw [if_neg haxis]
    refine SucceedsIff.of_iff ?_ (iff_of_true trivial hsplits)
    exact succeedsIff_bind_of_run hextents (succeeds_reshapeTo hvalue hproduct)
  · have haxis : operand.axis = 0 ∨ operand.dims.length ≤ operand.axis := by
      unfold FlatOperand.Splits at hsplits
      omega
    rw [if_pos haxis]
    exact (succeedsIff_throw_bind _).of_iff (iff_of_false id hsplits)

/-- A matrix is transposed if its operand says so. -/
theorem succeeds_orient {value : Handle}
    (hvalue : work.Holds bindings given value [operand.rows, operand.columns]
      (operand.stored element)) :
    Succeeds (if operand.transposed then transposeMatrix op value suffix else pure value) work
      fun value last => last.Holds bindings given value [operand.height, operand.width]
        (operand.matrix element) := by
  unfold FlatOperand.height FlatOperand.width
  cases htransposed : operand.transposed with
  | true =>
      rw [FlatOperand.matrix_of_transposed htransposed]
      exact @succeeds_swapLast _ _ _ _ _ _ [] _ _ _ hvalue
  | false =>
      rw [FlatOperand.matrix_of_straight htransposed]
      exact succeeds_pure hvalue

/-- The operands are looked up, split, transposed and multiplied. -/
theorem bindsIff_matMul (hlhs : lhs.IsInput work op 0 "axis_a")
    (hrhs : rhs.IsInput work op 1 "axis_b")
    (htransA : op.flagArg "trans_a" = .ok lhs.transposed)
    (htransB : op.flagArg "trans_b" = .ok rhs.transposed)
    (hlhsHolds : work.Holds bindings given lhs.value lhs.dims (lhs.stored y))
    (hrhsHolds : work.Holds bindings given rhs.value rhs.dims (rhs.stored z)) :
    BindsIff op (matMul op) work (lhs.Splits ∧ rhs.Splits ∧ lhs.width = rhs.height)
      fun value last => last.Holds bindings given value [lhs.height, rhs.width]
        ((lhs.matrix y).product (rhs.matrix z)) := by
  unfold matMul
  refine bindsIff_bind_of_run (run_ofExcept htransA) ?_
  refine bindsIff_bind_of_run (run_ofExcept htransB) ?_
  refine bindsIff_bind_of_run (run_ofExcept hlhs.axis_eq) ?_
  refine bindsIff_bind_of_run (run_ofExcept hrhs.axis_eq) ?_
  refine bindsIff_bind_of_run (run_input hlhs.toHasInput) ?_
  refine bindsIff_bind_of_run (run_input hrhs.toHasInput) ?_
  refine bindsIff_bind (succeedsIff_flattenAt hlhsHolds) ?_
  intro a afterLhs hafterLhs ha
  refine bindsIff_bind (succeedsIff_flattenAt (hrhsHolds.mono hafterLhs)) ?_
  intro b afterRhs hafterRhs hb
  extract_lets rest
  rw [← apply_ite (fun m => m >>= rest)]
  refine bindsIff_bind_of_succeeds (succeeds_orient (ha.mono hafterRhs)) ?_
  intro a next hnext ha
  unfold rest
  extract_lets multiply
  rw [← apply_ite (fun m => m >>= multiply)]
  refine bindsIff_bind_of_succeeds (succeeds_orient (hb.mono hnext)) ?_
  intro b last hlast hb
  have hproduct := @succeedsIff_matrixProduct last bindings given op op.label a b (lhs.matrix y)
    (rhs.matrix z) (ha.mono hlast) rfl hb rfl
  exact bindsIff_bind_bindOutput hproduct fun env hvalue => hvalue.with_env env

/-- A product, with the bias added and the rows back at their axes. -/
theorem bindsIff_biasedProduct {a b bias : Handle} {dims : List Nat} {axis m k k' n : Nat}
    (ha : work.Holds bindings given a [m, k] ⟨1, m, k, y⟩)
    (hb : work.Holds bindings given b [k', n] ⟨1, k', n, z⟩)
    (hbias : work.Holds bindings given bias [n] ⟨1, 1, n, r⟩)
    (haxis : axis ≤ dims.length) (hrows : product (dims.take axis) = m) :
    BindsIff op
      (do
        let result ← build op fun graph => graph.matrixProduct (nodeName op "matmul") a b
        let dims' ← dimsOf op result
        let bias ← build op fun graph => graph.broadcast (nodeName op "bias") bias 1 dims'
        let total ← build op fun graph => graph.arithmetic op.label .add result bias
        let (outer, _) ← splitAt op dims axis
        let columns ← extentAt op dims' 1
        bindOutput op 0 (← reshapeTo op total (outer ++ [columns]) "reshape"))
      work (k = k') fun value last =>
        last.Holds bindings given value (dims.take axis ++ [n])
          (((⟨1, m, k, y⟩ : MatrixStack).product ⟨1, k', n, z⟩).plus
            (MatrixStack.repeated ⟨1, 1, n, r⟩ m)) := by
  have hproduct := @succeedsIff_matrixProduct work bindings given op (nodeName op "matmul") a b
    ⟨1, m, k, y⟩ ⟨1, k', n, z⟩ ha rfl hb rfl
  refine BindsIff.of_iff (bindsIff_bind hproduct ?_) (and_iff_left trivial)
  intro result afterProduct hafterProduct hresult
  refine bindsIff_bind_of_run (run_dimsOf hresult.type_eq) ?_
  refine bindsIff_bind_of_succeeds (succeeds_broadcast (hbias.mono hafterProduct)) ?_
  intro row afterRow hafterRow hrow
  refine bindsIff_bind_of_succeeds (succeeds_add (hresult.mono hafterRow) hrow) ?_
  intro total last hlast htotal
  refine bindsIff_bind_of_run (run_splitAt haxis) ?_
  refine bindsIff_bind_of_run (run_extentAt rfl) ?_
  have hunfolded : product (dims.take axis ++ [n]) = product [m, n] := by
    simp [product_append, hrows]
  exact bindsIff_bind_bindOutput (succeeds_reshapeTo htotal hunfolded)
    fun env hvalue => hvalue.with_env env

theorem bindsIff_fullyConnected (hx : x.IsInput work op 0 "axis")
    (hw : w.IsInput work op 1 "axis_w")
    (hbias : work.HasInput op 2 bias ⟨.f32, ⟨[w.width]⟩⟩) (hstraight : x.transposed = false)
    (hxHolds : work.Holds bindings given x.value x.dims (x.stored y))
    (hwHolds : work.Holds bindings given w.value w.dims (w.stored z))
    (hbiasHolds : work.Holds bindings given bias [w.width] ⟨1, 1, w.width, r⟩) :
    BindsIff op (fullyConnected (!w.transposed) op) work
      (x.Splits ∧ w.Splits ∧ x.width = w.height)
      fun value last => last.Holds bindings given value (x.outer ++ [w.width])
        (((x.matrix y).product (w.matrix z)).plus
          (MatrixStack.repeated ⟨1, 1, w.width, r⟩ x.height)) := by
  have hrows : x.height = x.rows := if_neg (by simp [hstraight])
  have hcolumns : x.width = x.columns := if_neg (by simp [hstraight])
  rw [hrows, hcolumns, FlatOperand.matrix_of_straight hstraight]
  unfold fullyConnected
  refine bindsIff_bind_of_run (run_ofExcept hx.axis_eq) ?_
  refine bindsIff_bind_of_run (run_ofExcept hw.axis_eq) ?_
  refine bindsIff_bind_of_run (run_input hx.toHasInput) ?_
  refine bindsIff_bind_of_run (run_input hw.toHasInput) ?_
  refine bindsIff_bind_of_run (run_input hbias) ?_
  refine bindsIff_bind_of_run (run_dimsOf hx.typed) ?_
  have hflattened := (@succeedsIff_flattenAt _ _ _ op "axis" "input_2d" _ _ hxHolds).mono
    fun hsplits _ ha => And.intro hsplits ha
  refine bindsIff_bind hflattened ?_
  rintro a afterX hafterX ⟨hsplits, ha⟩
  refine bindsIff_bind (succeedsIff_flattenAt (hwHolds.mono hafterX)) ?_
  intro b afterW hafterW hb
  extract_lets rest
  have horient : (if (!w.transposed) = true then pure b >>= rest
      else transposeMatrix op b "weight_t" >>= rest) =
        (if w.transposed = true then transposeMatrix op b "weight_t" else pure b) >>= rest := by
    cases w.transposed <;> rfl
  rw [horient]
  refine bindsIff_bind_of_succeeds (succeeds_orient hb) ?_
  intro b last hlast hb
  exact bindsIff_biasedProduct ((ha.mono hafterW).mono hlast) hb
    (((hbiasHolds.mono hafterX).mono hafterW).mono hlast) (Nat.le_of_lt hsplits.2) rfl

/-! ## Steps in words -/

theorem run_flattenOperandInWords (hvalue : work.Holds bindings given operand.value operand.dims
      (operand.stored element)) (hwords : operand.FitsWords bits) :
    (flattenAtInWords bits op operand.value arg operand.axis suffix).run.run work =
      (flattenAt op operand.value arg operand.axis suffix).run.run work := by
  obtain ⟨hrows, hcolumns, hcount⟩ := hwords
  rw [← operand.product_dims] at hcount
  exact run_flattenAtInWords hvalue hrows hcolumns hcount

/-- Nodes other than those of the flattened operands do no arithmetic on extents. -/
theorem run_matMulInWords (hlhs : lhs.IsInput work op 0 "axis_a")
    (hrhs : rhs.IsInput work op 1 "axis_b")
    (hlhsHolds : work.Holds bindings given lhs.value lhs.dims (lhs.stored y))
    (hrhsHolds : work.Holds bindings given rhs.value rhs.dims (rhs.stored z))
    (hlhsWords : lhs.FitsWords bits) (hrhsWords : rhs.FitsWords bits) :
    (matMulInWords bits op).run.run work = (matMul op).run.run work := by
  unfold matMulInWords matMul
  refine run_bind_congr rfl fun transA next hrun => ?_
  obtain ⟨-, rfl⟩ := run_ofExcept_eq_ok_iff.mp hrun
  refine run_bind_congr rfl fun transB next hrun => ?_
  obtain ⟨-, rfl⟩ := run_ofExcept_eq_ok_iff.mp hrun
  refine run_bind_congr_of_run (run_ofExcept hlhs.axis_eq) ?_
  refine run_bind_congr_of_run (run_ofExcept hrhs.axis_eq) ?_
  refine run_bind_congr_of_run (run_input hlhs.toHasInput) ?_
  refine run_bind_congr_of_run (run_input hrhs.toHasInput) ?_
  refine run_bind_congr_of_succeeds (run_flattenOperandInWords hlhsHolds hlhsWords)
    (succeedsIff_flattenAt hlhsHolds) ?_
  intro a afterLhs hafterLhs ha
  have hright := hrhsHolds.mono hafterLhs
  exact run_bind_congr (run_flattenOperandInWords hright hrhsWords) fun _ _ _ => rfl

theorem run_biasedProductInWords {a b bias : Handle} {dims : List Nat} {axis m k k' n : Nat}
    (ha : work.Holds bindings given a [m, k] ⟨1, m, k, y⟩)
    (hb : work.Holds bindings given b [k', n] ⟨1, k', n, z⟩)
    (hbias : work.Holds bindings given bias [n] ⟨1, 1, n, r⟩)
    (haxis : axis ≤ dims.length) (hrows : product (dims.take axis) = m)
    (hbits : 2 ≤ bits) (hcount : m * n < twoPow bits) :
    (do
      let result ← build op fun graph => graph.matrixProduct (nodeName op "matmul") a b
      let dims' ← dimsOf op result
      let bias ← buildInWords bits op (nodeName op "bias") (.broadcast bias 1 dims')
      let total ← build op fun graph => graph.arithmetic op.label .add result bias
      let (outer, _) ← splitAt op dims axis
      let columns ← extentAt op dims' 1
      bindOutput op 0 (← reshapeToInWords bits op total (outer ++ [columns]) "reshape")
        ).run.run work =
    (do
      let result ← build op fun graph => graph.matrixProduct (nodeName op "matmul") a b
      let dims' ← dimsOf op result
      let bias ← build op fun graph => graph.broadcast (nodeName op "bias") bias 1 dims'
      let total ← build op fun graph => graph.arithmetic op.label .add result bias
      let (outer, _) ← splitAt op dims axis
      let columns ← extentAt op dims' 1
      bindOutput op 0 (← reshapeTo op total (outer ++ [columns]) "reshape")).run.run work := by
  have hproduct := @succeedsIff_matrixProduct work bindings given op (nodeName op "matmul") a b
    ⟨1, m, k, y⟩ ⟨1, k', n, z⟩ ha rfl hb rfl
  refine run_bind_congr_of_succeeds rfl hproduct ?_
  intro result afterProduct hafterProduct hresult
  refine run_bind_congr_of_run (run_dimsOf hresult.type_eq) ?_
  have hbias := hbias.mono hafterProduct
  refine run_bind_congr_of_succeeds (run_broadcastInWords hbits hbias) (succeeds_broadcast hbias) ?_
  intro row afterRow hafterRow hrow
  refine run_bind_congr_of_succeeds rfl (succeeds_add (hresult.mono hafterRow) hrow) ?_
  intro total last hlast htotal
  refine run_bind_congr_of_run (run_splitAt haxis) ?_
  refine run_bind_congr_of_run (run_extentAt rfl) ?_
  refine run_bind_congr (run_reshapeToInWords htotal ?_ ?_) fun _ _ _ => rfl
  · simpa using hcount
  · simpa [product_append, hrows] using hcount

theorem run_fullyConnectedInWords (hx : x.IsInput work op 0 "axis")
    (hw : w.IsInput work op 1 "axis_w")
    (hbias : work.HasInput op 2 bias ⟨.f32, ⟨[w.width]⟩⟩) (hstraight : x.transposed = false)
    (hxHolds : work.Holds bindings given x.value x.dims (x.stored y))
    (hwHolds : work.Holds bindings given w.value w.dims (w.stored z))
    (hbiasHolds : work.Holds bindings given bias [w.width] ⟨1, 1, w.width, r⟩)
    (hbits : 2 ≤ bits) (hxWords : x.FitsWords bits) (hwWords : w.FitsWords bits)
    (hcount : x.height * w.width < twoPow bits) :
    (fullyConnectedInWords bits (!w.transposed) op).run.run work =
      (fullyConnected (!w.transposed) op).run.run work := by
  have hrows : x.height = x.rows := if_neg (by simp [hstraight])
  rw [hrows] at hcount
  unfold fullyConnectedInWords fullyConnected
  refine run_bind_congr_of_run (run_ofExcept hx.axis_eq) ?_
  refine run_bind_congr_of_run (run_ofExcept hw.axis_eq) ?_
  refine run_bind_congr_of_run (run_input hx.toHasInput) ?_
  refine run_bind_congr_of_run (run_input hw.toHasInput) ?_
  refine run_bind_congr_of_run (run_input hbias) ?_
  refine run_bind_congr_of_run (run_dimsOf hx.typed) ?_
  have hflattened := (@succeedsIff_flattenAt _ _ _ op "axis" "input_2d" _ _ hxHolds).mono
    fun hsplits _ ha => And.intro hsplits ha
  refine run_bind_congr_of_succeeds (run_flattenOperandInWords hxHolds hxWords) hflattened ?_
  rintro a afterX hafterX ⟨hsplits, ha⟩
  have hright := hwHolds.mono hafterX
  refine run_bind_congr_of_succeeds (run_flattenOperandInWords hright hwWords)
    (succeedsIff_flattenAt hright) ?_
  intro b afterW hafterW hb
  extract_lets restInWords rest
  have horient {f : Handle → Lowering Unit} : (if (!w.transposed) = true then pure b >>= f
      else transposeMatrix op b "weight_t" >>= f) =
        (if w.transposed = true then transposeMatrix op b "weight_t" else pure b) >>= f := by
    cases w.transposed <;> rfl
  rw [horient, horient]
  refine run_bind_congr_of_succeeds rfl (succeeds_orient hb) ?_
  intro b last hlast hb
  exact run_biasedProductInWords ((ha.mono hafterW).mono hlast) hb
    (((hbiasHolds.mono hafterX).mono hafterW).mono hlast) (Nat.le_of_lt hsplits.2) rfl hbits hcount

/-! ## Products by their elements -/

/-- An element of the product of two operands. -/
def productEntry? (lhs rhs : FlatOperand) (a b : Tensor) (i j : Nat) : Option Float32 :=
  dotProduct? lhs.width (fun k => lhs.entry? a i k) fun k => rhs.entry? b k j

theorem productEntry?_eq_some {a b : Tensor} {i j : Nat}
    (ha : a.Stacks lhs.dims (lhs.stored y)) (hb : b.Stacks rhs.dims (rhs.stored z))
    (hinner : lhs.width = rhs.height) (hi : i < lhs.height) (hj : j < rhs.width) :
    productEntry? lhs rhs a b i j =
      some (((lhs.matrix y).product (rhs.matrix z)).element 0 i j) := by
  refine dotProduct?_eq_some (fun k hk => ?_) fun k hk => ?_
  · exact FlatOperand.entry?_eq_some ha hi hk
  · exact FlatOperand.entry?_eq_some hb (hinner ▸ hk) hj

/-- A value of the last workspace is the product of two operands of the first, for some
values of these. -/
structure IsProduct (work : Workspace) (lhs rhs : FlatOperand) (bindings : Bindings)
    (a b : Tensor) (value : Handle) (last : Workspace) : Prop where
  typed : last.graph.valueType value = .ok ⟨.f32, ⟨[lhs.height, rhs.width]⟩⟩
  evaluates : work.HasValue bindings lhs.value lhs.type a →
    work.HasValue bindings rhs.value rhs.type b →
    ∃ result, last.HasValue bindings value ⟨.f32, ⟨[lhs.height, rhs.width]⟩⟩ result ∧
      ∀ i < lhs.height, ∀ j < rhs.width, ∃ sum,
        productEntry? lhs rhs a b i j = some sum ∧
        result.rowMajor? rhs.width i j = some sum

/-- The same with a bias added to each row; the rows keep the axes of the left operand. -/
structure IsBiasedProduct (work : Workspace) (x w : FlatOperand) (bias : Handle)
    (bindings : Bindings) (a b c : Tensor) (value : Handle) (last : Workspace) : Prop where
  typed : last.graph.valueType value = .ok ⟨.f32, ⟨x.outer ++ [w.width]⟩⟩
  evaluates : work.HasValue bindings x.value x.type a →
    work.HasValue bindings w.value w.type b →
    work.HasValue bindings bias ⟨.f32, ⟨[w.width]⟩⟩ c →
    ∃ result, last.HasValue bindings value ⟨.f32, ⟨x.outer ++ [w.width]⟩⟩ result ∧
      ∀ i < x.height, ∀ j < w.width, ∃ sum offset,
        productEntry? x w a b i j = some sum ∧ c.at? .f32 [j] = some offset ∧
        result.rowMajor? w.width i j = some (sum + offset)

theorem bindsIff_isProduct (hlhs : lhs.IsInput work op 0 "axis_a")
    (hrhs : rhs.IsInput work op 1 "axis_b")
    (htransA : op.flagArg "trans_a" = .ok lhs.transposed)
    (htransB : op.flagArg "trans_b" = .ok rhs.transposed) (a b : Tensor) :
    BindsIff op (matMul op) work (lhs.Splits ∧ rhs.Splits ∧ lhs.width = rhs.height)
      (IsProduct work lhs rhs bindings a b) := by
  let given := work.HasValue bindings lhs.value lhs.type a ∧
    work.HasValue bindings rhs.value rhs.type b
  obtain ⟨y, ha, haHolds⟩ := @Workspace.exists_holds _ bindings given _ _ a _ _ hlhs.typed
    lhs.product_dims And.left
  obtain ⟨z, hb, hbHolds⟩ := @Workspace.exists_holds _ bindings given _ _ b _ _ hrhs.typed
    rhs.product_dims And.right
  have hproduct := bindsIff_matMul hlhs hrhs htransA htransB haHolds hbHolds
  refine hproduct.mono fun hfits hholds => ⟨hholds.type_eq, fun hleft hright => ?_⟩
  have hgiven : given := ⟨hleft, hright⟩
  obtain ⟨result, hresult, hcells⟩ := hholds.exists_rows hgiven
  refine ⟨result, hresult, fun i hi j hj => ⟨_, ?_, hcells i hi j hj⟩⟩
  exact productEntry?_eq_some (ha hgiven) (hb hgiven) hfits.2.2 hi hj

theorem bindsIff_isBiasedProduct (hx : x.IsInput work op 0 "axis")
    (hw : w.IsInput work op 1 "axis_w")
    (hbias : work.HasInput op 2 bias ⟨.f32, ⟨[w.width]⟩⟩) (hstraight : x.transposed = false)
    (a b c : Tensor) :
    BindsIff op (fullyConnected (!w.transposed) op) work
      (x.Splits ∧ w.Splits ∧ x.width = w.height)
      (IsBiasedProduct work x w bias bindings a b c) := by
  let given := work.HasValue bindings x.value x.type a ∧
    work.HasValue bindings w.value w.type b ∧
    work.HasValue bindings bias ⟨.f32, ⟨[w.width]⟩⟩ c
  obtain ⟨y, ha, haHolds⟩ := @Workspace.exists_holds _ bindings given _ _ a _ _ hx.typed
    x.product_dims And.left
  obtain ⟨z, hb, hbHolds⟩ := @Workspace.exists_holds _ bindings given _ _ b _ _ hw.typed
    w.product_dims fun hgiven => hgiven.2.1
  have hrow : product [w.width] = 1 * w.width := by simp
  obtain ⟨r, hc, hcHolds⟩ := @Workspace.exists_holds _ bindings given _ _ c _ _ hbias.typed
    hrow fun hgiven => hgiven.2.2
  have hproduct := bindsIff_fullyConnected hx hw hbias hstraight haHolds hbHolds hcHolds
  refine hproduct.mono fun hfits hholds => ⟨hholds.type_eq, fun hleft hright hlast => ?_⟩
  have hgiven : given := ⟨hleft, hright, hlast⟩
  obtain ⟨result, hresult, hcells⟩ := hholds.exists_rows hgiven
  refine ⟨result, hresult, fun i hi j hj => ⟨_, r 0 0 j, ?_, ?_, hcells i hi j hj⟩⟩
  · exact productEntry?_eq_some (ha hgiven) (hb hgiven) hfits.2.2 hi hj
  · exact (hc hgiven).at?_row hj

/-- A product of flattened operands is lowered exactly when both operands split, their inner
extents agree and the output is free, and it then has the sums of products for its elements.
A fully connected layer takes its weights transposed in one variant, and adds a bias.  In words
the lowering is the same while the extents and counts of the matrices are words. -/
theorem flattened_products (bits : Nat) :
    (∀ {op : Operator} {work : Workspace} {x w : FlatOperand} {bias : Handle},
      OperatorKind.parse? op.kind =
        some (if w.transposed then .fullyConnected else .fullyConnectedTransposed) →
      x.IsInput work op 0 "axis" → x.transposed = false → w.IsInput work op 1 "axis_w" →
      work.HasInput op 2 bias ⟨.f32, ⟨[w.width]⟩⟩ →
      (BindsIff op (operator op) work (x.Splits ∧ w.Splits ∧ x.width = w.height)
        fun value last => ∀ bindings a b c,
          IsBiasedProduct work x w bias bindings a b c value last) ∧
      (2 ≤ bits → x.FitsWords bits → w.FitsWords bits → x.height * w.width < twoPow bits →
        (fullyConnectedInWords bits (!w.transposed) op).run.run work =
          (operator op).run.run work)) ∧
    ∀ {op : Operator} {work : Workspace} {lhs rhs : FlatOperand},
      OperatorKind.parse? op.kind = some .matMul →
      lhs.IsInput work op 0 "axis_a" → op.flagArg "trans_a" = .ok lhs.transposed →
      rhs.IsInput work op 1 "axis_b" → op.flagArg "trans_b" = .ok rhs.transposed →
      (BindsIff op (operator op) work (lhs.Splits ∧ rhs.Splits ∧ lhs.width = rhs.height)
        fun value last => ∀ bindings a b, IsProduct work lhs rhs bindings a b value last) ∧
      (lhs.FitsWords bits → rhs.FitsWords bits →
        (matMulInWords bits op).run.run work = (operator op).run.run work) := by
  -- what is known of an operand before any bindings are given
  have hstart {work : Workspace} {operand : FlatOperand} {op : Operator} {index : Nat}
      {arg : String} (hinput : operand.IsInput work op index arg) :
      work.Holds .empty False operand.value operand.dims (operand.stored fun _ _ _ => 0.0) :=
    ⟨hinput.typed, False.elim⟩
  constructor
  · intro op work x w bias hkind hx hstraight hw hbias
    have hlayer : operator op = fullyConnected (!w.transposed) op := by
      rw [operator_eq hkind]
      cases w.transposed <;> rfl
    rw [hlayer]
    constructor
    · refine BindsIff.forall fun bindings => BindsIff.forall fun a => ?_
      refine BindsIff.forall fun b => BindsIff.forall fun c => ?_
      exact bindsIff_isBiasedProduct hx hw hbias hstraight a b c
    · intro hbits hxWords hwWords hcount
      have hrow : work.Holds .empty False bias [w.width] ⟨1, 1, w.width, fun _ _ _ => 0.0⟩ :=
        ⟨hbias.typed, False.elim⟩
      exact run_fullyConnectedInWords hx hw hbias hstraight (hstart hx) (hstart hw) hrow hbits
        hxWords hwWords hcount
  · intro op work lhs rhs hkind hlhs htransA hrhs htransB
    rw [operator_eq hkind]
    constructor
    · refine BindsIff.forall fun bindings => BindsIff.forall fun a => BindsIff.forall fun b => ?_
      exact bindsIff_isProduct hlhs hrhs htransA htransB a b
    · intro hlhsWords hrhsWords
      exact run_matMulInWords hlhs hrhs (hstart hlhs) (hstart hrhs) hlhsWords hrhsWords

/-- A layer of four columns, whose input is split after its first axis. -/
def denseLayer : Operator :=
  ⟨"FC", ["x", "w", "b"], ["y"], none, .empty⟩

/-- A product with the transpose of its left operand, which is split after two axes. -/
def foldedProduct : Operator :=
  ⟨"MatMul", ["x", "w"], ["y"], none,
    ⟨[("axis_a", .int 2), ("trans_a", .int 1)], List.pairwise_pair.mpr (by decide)⟩⟩

def layerOperands : Workspace where
  graph := ⟨"layers", #[
    ⟨"x", .variable .placeholder ⟨.f32, ⟨[2, 2, 3]⟩⟩, [⟨.f32, ⟨[2, 2, 3]⟩⟩]⟩,
    ⟨"w", .variable .placeholder ⟨.f32, ⟨[4, 6]⟩⟩, [⟨.f32, ⟨[4, 6]⟩⟩]⟩,
    ⟨"b", .variable .placeholder ⟨.f32, ⟨[4]⟩⟩, [⟨.f32, ⟨[4]⟩⟩]⟩]⟩
  env := ⟨[("x", .first 0), ("w", .first 1), ("b", .first 2)], by decide⟩

def layerBindings : Bindings :=
  .ofList [("x", Tensor.zeros .f32 ⟨[2, 2, 3]⟩), ("w", Tensor.zeros .f32 ⟨[4, 6]⟩),
    ("b", Tensor.zeros .f32 ⟨[4]⟩)]

theorem layerOperands_flattened_products :
    (∃ last value result,
      (operator denseLayer).run.run layerOperands = (.ok (), last) ∧
      (fullyConnectedInWords 64 false denseLayer).run.run layerOperands = (.ok (), last) ∧
      last.env.get? "y" = some value ∧
      last.HasValue layerBindings value ⟨.f32, ⟨[2, 4]⟩⟩ result) ∧
    ∃ last value result,
      (operator foldedProduct).run.run layerOperands = (.ok (), last) ∧
      (matMulInWords 64 foldedProduct).run.run layerOperands = (.ok (), last) ∧
      last.env.get? "y" = some value ∧
      last.HasValue layerBindings value ⟨.f32, ⟨[3, 6]⟩⟩ result := by
  have hx : layerOperands.HasValue layerBindings (.first 0) ⟨.f32, ⟨[2, 2, 3]⟩⟩
      (Tensor.zeros .f32 ⟨[2, 2, 3]⟩) := ⟨(Graph.evaluate_eq _ _ rfl).trans rfl, rfl⟩
  have hw : layerOperands.HasValue layerBindings (.first 1) ⟨.f32, ⟨[4, 6]⟩⟩
      (Tensor.zeros .f32 ⟨[4, 6]⟩) := ⟨(Graph.evaluate_eq _ _ rfl).trans rfl, rfl⟩
  have hb : layerOperands.HasValue layerBindings (.first 2) ⟨.f32, ⟨[4]⟩⟩
      (Tensor.zeros .f32 ⟨[4]⟩) := ⟨(Graph.evaluate_eq _ _ rfl).trans rfl, rfl⟩
  constructor
  · obtain ⟨hlayer, hwords⟩ := @(flattened_products 64).1 denseLayer layerOperands
      ⟨.first 0, [2, 2, 3], 1, false⟩ ⟨.first 1, [4, 6], 1, true⟩ (.first 2) rfl
      ⟨⟨⟨"x", rfl, rfl⟩, rfl⟩, rfl⟩ rfl ⟨⟨⟨"w", rfl, rfl⟩, rfl⟩, rfl⟩ ⟨⟨"b", rfl, rfl⟩, rfl⟩
    obtain ⟨last, hrun⟩ := hlayer.succeeds (by decide) ⟨"y", rfl, rfl⟩
    obtain ⟨-, name, value, hname, hvalue, hproduct⟩ := hlayer.ensures hrun
    obtain rfl : "y" = name := Option.some.inj hname
    obtain ⟨result, hresult, -⟩ := (hproduct layerBindings _ _ _).evaluates hx hw hb
    have hinWords := hwords (by decide) (by decide) (by decide) (by decide)
    exact ⟨last, value, result, hrun, hinWords.trans hrun, hvalue, hresult⟩
  · obtain ⟨hfolded, hwords⟩ := @(flattened_products 64).2 foldedProduct layerOperands
      ⟨.first 0, [2, 2, 3], 2, true⟩ ⟨.first 1, [4, 6], 1, false⟩ rfl
      ⟨⟨⟨"x", rfl, rfl⟩, rfl⟩, rfl⟩ rfl ⟨⟨⟨"w", rfl, rfl⟩, rfl⟩, rfl⟩ rfl
    obtain ⟨last, hrun⟩ := hfolded.succeeds (by decide) ⟨"y", rfl, rfl⟩
    obtain ⟨-, name, value, hname, hvalue, hproduct⟩ := hfolded.ensures hrun
    obtain rfl : "y" = name := Option.some.inj hname
    obtain ⟨result, hresult, -⟩ := (hproduct layerBindings _ _).evaluates hx hw
    have hinWords := hwords (by decide) (by decide)
    exact ⟨last, value, result, hrun, hinWords.trans hrun, hvalue, hresult⟩

/-- A layer whose input has no columns and as many rows as there are words. -/
def emptyColumnsLayer : Operator :=
  ⟨"FC", ["x", "w", "b"], ["y"], none, ⟨[("axis", .int 2)], List.pairwise_singleton ..⟩⟩

def emptyColumnsOperands : Workspace where
  graph := ⟨"columns", #[
    ⟨"x", .variable .placeholder ⟨.f32, ⟨[twoPow 32, twoPow 32, 0]⟩⟩,
      [⟨.f32, ⟨[twoPow 32, twoPow 32, 0]⟩⟩]⟩,
    ⟨"w", .variable .placeholder ⟨.f32, ⟨[1, 0]⟩⟩, [⟨.f32, ⟨[1, 0]⟩⟩]⟩,
    ⟨"b", .variable .placeholder ⟨.f32, ⟨[1]⟩⟩, [⟨.f32, ⟨[1]⟩⟩]⟩]⟩
  env := ⟨[("x", .first 0), ("w", .first 1), ("b", .first 2)], by decide⟩

/-- In words the sum of this layer has no rows, and the output is still declared to have the
elements of all. -/
theorem emptyColumns_loses_rows :
    ∃ last lastInWords,
      (operator emptyColumnsLayer).run.run emptyColumnsOperands = (.ok (), last) ∧
      last.graph.valueType (.first 7) = .ok ⟨.f32, ⟨[twoPow 64, 1]⟩⟩ ∧
      (fullyConnectedInWords 64 false emptyColumnsLayer).run.run emptyColumnsOperands =
        (.ok (), lastInWords) ∧
      lastInWords.graph.valueType (.first 7) = .ok ⟨.f32, ⟨[0, 1]⟩⟩ ∧
      lastInWords.env.get? "y" = some (.first 8) ∧
      lastInWords.graph.valueType (.first 8) = .ok ⟨.f32, ⟨[twoPow 32, twoPow 32, 1]⟩⟩ :=
  ⟨_, _, rfl, rfl, rfl, rfl, rfl, rfl⟩

end Lowering
end NetImport
