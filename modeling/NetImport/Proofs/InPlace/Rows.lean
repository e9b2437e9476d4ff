import NetImport.Proofs.InPlace.Blocks
import NetImport.Proofs.Kernel.Reduction
import NetImport.Proofs.Tensor.RowMajor

/-!
# Routines that work row by row

The rows of a matrix are consecutive blocks of its buffer.  A product clears the whole buffer
and adds up each row in place.  Softmax writes the exponentials of a row, whose sum it carries
along, and scales them in a second loop over the same row.
-/

namespace NetImport
namespace InPlace

/-! ## Matrix products -/

def fill {α : Type} (value : α) : Routine (Array α) Unit := fun buffer =>
  .ok () (Array.replicate buffer.size value)

/-- Adds row `p` of the right factor, scaled, to row `i` of the buffer. -/
def addRow (rhs : Array Float32) (n i p : Nat) (scale : Float32) :
    Routine (Array Float32) Unit := do
  let row ← cut rhs (p * n) ((p + 1) * n)
  (List.range (min n row.size)).forM fun j => do
    let x ← load row j
    update (i * n + j) fun sum => sum + scale * x

def multiplyRow (lhs rhs : Array Float32) (k n i : Nat) : Routine (Array Float32) Unit :=
  (List.range k).forM fun p => do
    let scale ← load lhs (i * k + p)
    addRow rhs n i p scale

def multiply (lhs rhs : Array Float32) (m k n : Nat) : Routine (Array Float32) Unit := do
  fill 0.0
  if n = 0 then return ()
  else
    let buffer ← get
    let rows ← divide buffer.size n
    (List.range (min m rows)).forM (multiplyRow lhs rhs k n)

/-- The rows and columns of the factors, when they fit. -/
def productExtents (lhs rhs : Shape) : Except Stop (Nat × Nat × Nat) :=
  if lhs.matrixProduct? rhs = none then .error (.refused (.shapeMismatch "matmul" lhs rhs))
  else do
    let m ← entry lhs.dims 0
    let k ← entry lhs.dims 1
    let n ← entry rhs.dims 1
    return (m, k, n)

def matrixProduct (lhs rhs : Tensor) : Routine Storage Unit := do
  let output ← get
  requireSingleDType "matmul" lhs.dtype
  requireSingleDType "matmul" rhs.dtype
  requireSingleDType "matmul" output.dtype
  let (m, k, n) ← productExtents lhs.shape rhs.shape
  Kernel.requireShape "matmul (output)" (Shape.matrix m n) output.shape
  let a ← singles lhs
  let b ← singles rhs
  onSingles (multiply a b m k n)

section Product

variable {lhs rhs : Array Float32} {m k n : Nat}

theorem rewrites_addRow {i p : Nat} (scale : Float32) (hrhs : (p + 1) * n ≤ rhs.size)
    {sums : Array Float32} (hsums : sums.size = n) :
    Rewrites (addRow rhs n i p scale) (i * n) sums.toList
      (.ok (MatrixProduct.addScaledRow rhs n p scale sums).toList) := by
  have hrow : cut rhs (p * n) ((p + 1) * n) = .ok (rhs.extract (p * n) ((p + 1) * n)) :=
    cut_eq_ok (Nat.mul_le_mul_right n (Nat.le_succ p)) hrhs
  have hwidth : (rhs.extract (p * n) ((p + 1) * n)).size = n := size_extract_row hrhs
  have hsize : (MatrixProduct.addScaledRow rhs n p scale sums).size = n := by
    simp [MatrixProduct.addScaledRow, hsums]
  apply Rewrites.read_ok hrow
  rw [hwidth, Nat.min_self]
  apply Rewrites.forM_places hsums hsize
  intro j x y hx hy
  have hj : j < n := by
    rw [← hsums]
    exact (Array.getElem?_eq_some_iff.mp hx).1
  have hplace : p * n + j < rhs.size := by
    rw [Nat.succ_mul] at hrhs
    omega
  have hload : load (rhs.extract (p * n) ((p + 1) * n)) j =
      .ok (rhs.getD (p * n + j) 0.0) := by
    apply load_eq_ok
    simp [hwidth, hj, hplace]
  have hsum : x + scale * rhs.getD (p * n + j) 0.0 = y := by
    simpa [MatrixProduct.addScaledRow, hx] using hy
  rw [← hsum]
  exact Rewrites.read_ok hload (rewrites_update _ _ x)

/-- Row `i` of the result after the first rounds of its loop. -/
def partialRow (lhs rhs : Array Float32) (k n i rounds : Nat) : Array Float32 :=
  (List.range rounds).foldl
    (fun sums p => MatrixProduct.addScaledRow rhs n p (lhs.getD (i * k + p) 0.0) sums)
    (Array.replicate n 0.0)

theorem partialRow_succ (lhs rhs : Array Float32) (k n i rounds : Nat) :
    partialRow lhs rhs k n i (rounds + 1) =
      MatrixProduct.addScaledRow rhs n rounds (lhs.getD (i * k + rounds) 0.0)
        (partialRow lhs rhs k n i rounds) := by
  rw [partialRow, List.range_succ, List.foldl_append]
  rfl

theorem size_partialRow (lhs rhs : Array Float32) (k n i rounds : Nat) :
    (partialRow lhs rhs k n i rounds).size = n := by
  induction rounds with
  | zero => simp [partialRow]
  | succ rounds ih =>
      rw [partialRow_succ, MatrixProduct.addScaledRow, Array.size_mapIdx, ih]

theorem rewrites_multiplyRow {i : Nat} (hi : i < m) (hlhs : lhs.size = m * k)
    (hrhs : rhs.size = k * n) :
    Rewrites (multiplyRow lhs rhs k n i) (i * n) (List.replicate n 0.0)
      (.ok (MatrixProduct.row lhs rhs k n i).toList) := by
  have hloop : Rewrites (multiplyRow lhs rhs k n i) (i * n)
      (partialRow lhs rhs k n i 0).toList (.ok (partialRow lhs rhs k n i k).toList) := by
    apply Rewrites.forM_same fun rounds => (partialRow lhs rhs k n i rounds).toList
    intro p hp
    have hscale : load lhs (i * k + p) = .ok (lhs.getD (i * k + p) 0.0) := by
      apply load_eq_ok_getD
      rw [hlhs]
      exact mul_add_lt_mul hi hp
    have hrow : (p + 1) * n ≤ rhs.size := by
      rw [hrhs]
      exact Nat.mul_le_mul_right n hp
    apply Rewrites.read_ok hscale
    rw [partialRow_succ]
    exact rewrites_addRow _ hrow (size_partialRow lhs rhs k n i p)
  have hcleared : (partialRow lhs rhs k n i 0).toList = List.replicate n 0.0 :=
    Array.toList_replicate
  rw [hcleared] at hloop
  exact hloop

theorem multiply_run {buffer : Array Float32} (hlhs : lhs.size = m * k)
    (hrhs : rhs.size = k * n) (hsize : buffer.size = m * n) :
    multiply lhs rhs m k n buffer = .ok () (MatrixProduct.rows lhs rhs m k n).toArray := by
  have hfill : fill 0.0 buffer = .ok () (Array.replicate (m * n) 0.0) := by
    rw [fill, hsize]
  rw [multiply, bind_apply_of_ok hfill]
  by_cases hn : n = 0
  · have hempty : MatrixProduct.rows lhs rhs m k n = [] := by
      apply List.eq_nil_of_length_eq_zero
      rw [MatrixProduct.length_rows, hn, Nat.mul_zero]
    rw [if_pos hn, hempty, hn, Nat.mul_zero]
    rfl
  · have hrows : divide (Array.replicate (m * n) (0.0 : Float32)).size n = .ok m := by
      rw [Array.size_replicate, divide_eq_ok hn, Nat.mul_div_cancel m (Nat.pos_of_ne_zero hn)]
    have hcleared : (List.range m).flatMap (fun _ => List.replicate n (0.0 : Float32)) =
        List.replicate (m * n) 0.0 := by
      rw [List.eq_replicate_iff]
      simp
    have hloop : Rewrites ((List.range m).forM (multiplyRow lhs rhs k n)) 0
        ((List.range m).flatMap fun _ => List.replicate n 0.0)
        (.ok (MatrixProduct.rows lhs rhs m k n)) := by
      apply Rewrites.forM_range_ok n
      · intro i hi
        exact List.length_replicate
      · intro i hi
        rw [Array.length_toList, MatrixProduct.size_row]
      · intro i hi
        rw [Nat.zero_add]
        exact rewrites_multiplyRow hi hlhs hrhs
    rw [hcleared] at hloop
    rw [if_neg hn, get_bind_apply, hrows, read_ok_bind_apply, Nat.min_self]
    simpa using hloop.run

end Product

theorem dims_of_matrixProduct? {lhs rhs : Shape} {extents : Nat × Nat × Nat}
    (hextents : lhs.matrixProduct? rhs = some extents) :
    ∃ m k n, extents = (m, k, n) ∧ lhs = Shape.matrix m k ∧ rhs = Shape.matrix k n := by
  unfold Shape.matrixProduct? at hextents
  split at hextents
  · split at hextents
    · next m k k' n hinner =>
        subst hinner
        exact ⟨m, k, n, (Option.some.inj hextents).symm, rfl, rfl⟩
    · cases hextents
  · cases hextents

theorem matrixProduct_realizes (lhs rhs : Tensor) :
    Realizes (matrixProduct lhs rhs) (Kernel.matrixProduct lhs rhs) := by
  intro output
  rw [matrixProduct, get_bind_apply]
  apply requireSingle_step
  intro a ha
  apply requireSingle_step
  intro b hb
  apply requireSingle_step
  intro c hc
  cases hextents : lhs.shape.matrixProduct? rhs.shape with
  | none =>
      rw [productExtents, if_pos hextents]
      rfl
  | some extents =>
      obtain ⟨m, k, n, rfl, hlhs, hrhs⟩ := dims_of_matrixProduct? hextents
      have hread : productExtents lhs.shape rhs.shape = .ok (m, k, n) := by
        rw [productExtents, if_neg (by simp [hextents]), hlhs, hrhs]
        rfl
      have hasize : a.size = m * k := by
        rw [Tensor.size_of_elements? ha, hlhs]
        simp [Shape.matrix, Shape.count]
      have hbsize : b.size = k * n := by
        rw [Tensor.size_of_elements? hb, hrhs]
        simp [Shape.matrix, Shape.count]
      rw [hread, read_ok_bind_apply]
      apply shape_step
      intro (hshape : Shape.matrix m n = output.shape)
      have hsize : (MatrixProduct.rows a b m k n).toArray.size = output.shape.count := by
        rw [← hshape, List.size_toArray, MatrixProduct.length_rows]
        simp [Shape.matrix, Shape.count]
      rw [singles_eq_ok ha, read_ok_bind_apply, singles_eq_ok hb, read_ok_bind_apply]
      apply onElements_ending (Tensor.exists_elements?_iff.mp ⟨c, hc⟩) hsize
      intro elements helements
      apply multiply_run hasize hbsize
      rw [helements, List.size_toArray, MatrixProduct.length_rows]

/-! ## Softmax -/

/-- Stores the exponential of a shifted element and adds it to the sum so far. -/
def storePower (source : Array Float32) (top : Float32) (start : Nat) (sum : Float32)
    (j : Nat) : Routine (Array Float32) Float32 := do
  let x ← load source j
  let power := (x - top).exp
  store (start + j) power
  return sum + power

def normalizeRow (source : Array Float32) (columns start : Nat) :
    Routine (Array Float32) Unit := do
  let top := source.foldl greater minusInfinity
  let sum ← (List.range (min columns source.size)).foldlM (storePower source top start) 0.0
  if sum > 0.0 then
    let scale := 1.0 / sum
    (List.range columns).forM fun j => update (start + j) (· * scale)
  else return ()

def normalizeRows (elements : Array Float32) (columns : Nat) :
    Routine (Array Float32) Unit := do
  let buffer ← get
  let sources ← divide elements.size columns
  let rows ← divide buffer.size columns
  (List.range (min sources rows)).forM fun r => do
    let source ← cut elements (r * columns) ((r + 1) * columns)
    normalizeRow source columns (r * columns)

def softmax (input : Tensor) : Routine Storage Unit := do
  let output ← get
  requireSingleDType "softmax" input.dtype
  requireSingleDType "softmax" output.dtype
  Kernel.requireShape "softmax" input.shape output.shape
  if input.shape.rank = 2 then do
    let columns ← entry input.shape.dims 1
    if columns = 0 then return ()
    else do
      let x ← singles input
      onSingles (normalizeRows x columns)
  else
    refuse (.invalidArgument "softmax" s!"expected a 2-D input, got {input.shape.text}")

theorem storePower_run (source : Array Float32) (top : Float32) (start : Nat)
    (sum : Float32) {j : Nat} (hj : j < source.size) {front back : List Float32} {u : Float32}
    (hfront : front.length = start + j) :
    storePower source top start sum j (front ++ u :: back).toArray =
      .ok (sum + (source.getD j 0.0 - top).exp)
        (front ++ (source.getD j 0.0 - top).exp :: back).toArray := by
  have hstore : store (start + j) (source.getD j 0.0 - top).exp (front ++ u :: back).toArray =
      .ok () (front ++ (source.getD j 0.0 - top).exp :: back).toArray := by
    simpa using rewrites_store (start + j) u (source.getD j 0.0 - top).exp front back hfront
  rw [storePower, load_eq_ok_getD 0.0 hj, read_ok_bind_apply, bind_apply_of_ok hstore]
  rfl

theorem fills_normalizeRow (source : Array Float32) (start : Nat) :
    Fills (normalizeRow source source.size start) start source.size
      (.ok (Softmax.normalize source.toList)) := by
  intro old hold front back hfront
  let top := source.toList.foldl greater minusInfinity
  let powers := source.toList.map fun x => (x - top).exp
  have htop : source.foldl greater minusInfinity = top :=
    (Array.foldl_toList _).symm
  have hvalues : (List.range source.size).map (fun j => (source.getD j 0.0 - top).exp) =
      powers := by
    apply List.ext_getElem (by simp [powers])
    intro j hj hj'
    have hj : j < source.size := by simpa using hj
    simp [powers, hj]
  have hloop : (List.range source.size).foldlM (storePower source top start) 0.0
      (front ++ old ++ back).toArray =
      .ok (powers.foldl (· + ·) 0.0) (front ++ powers ++ back).toArray := by
    have hrounds := foldlM_range'_store (fun sum j (hj : j < source.size) front back u hfront =>
      storePower_run source top start sum hj hfront) 0.0 0 front old back hfront (by omega)
    rw [hold, ← List.range_eq_range', hvalues] at hrounds
    exact hrounds
  change normalizeRow _ _ _ _ = _
  rw [normalizeRow, Nat.min_self, htop, bind_apply_of_ok hloop, Softmax.normalize]
  by_cases hpositive : powers.foldl (· + ·) 0.0 > 0.0
  · rw [if_pos hpositive, if_pos hpositive]
    have hlength : powers.toArray.size = source.size := by simp [powers]
    have hscaled : Rewrites ((List.range source.size).forM fun j =>
        update (start + j) (· * (1.0 / powers.foldl (· + ·) 0.0))) start powers.toArray.toList
        (.ok (powers.toArray.map (· * (1.0 / powers.foldl (· + ·) 0.0))).toList) := by
      apply Rewrites.forM_places hlength (by rw [Array.size_map, hlength])
      intro j x y hx hy
      rw [Array.getElem?_map, hx] at hy
      cases hy
      exact rewrites_update (start + j) _ x
    have hdone := hscaled front back hfront
    rw [Array.toList_map] at hdone
    exact hdone
  · rw [if_neg hpositive, if_neg hpositive]
    rfl

section Rows

variable {elements buffer : Array Float32} {rows columns : Nat}

theorem normalizeRows_run (hcolumns : columns ≠ 0) (helements : elements.size = rows * columns)
    (hbuffer : buffer.size = rows * columns) :
    normalizeRows elements columns buffer =
      .ok () ((Softmax.rowsOf columns rows elements.toList).flatMap Softmax.normalize).toArray := by
  have hrows : divide (rows * columns) columns = .ok rows := by
    rw [divide_eq_ok hcolumns, Nat.mul_div_cancel rows (Nat.pos_of_ne_zero hcolumns)]
  let row (r : Nat) : Array Float32 := elements.extract (r * columns) ((r + 1) * columns)
  have hrow : ∀ r < rows, cut elements (r * columns) ((r + 1) * columns) = .ok (row r) ∧
      (row r).size = columns := by
    intro r hr
    have hend : (r + 1) * columns ≤ elements.size := by
      rw [helements]
      exact Nat.mul_le_mul_right columns hr
    refine ⟨cut_eq_ok (Nat.mul_le_mul_right columns (Nat.le_succ r)) hend, ?_⟩
    exact size_extract_row hend
  have hlists : (Softmax.rowsOf columns rows elements.toList).flatMap Softmax.normalize =
      (List.range rows).flatMap fun r => Softmax.normalize (row r).toList := by
    rw [Softmax.rowsOf_eq, List.flatMap_map]
    simp [row, Nat.succ_mul]
  have hloop : Fills ((List.range rows).forM fun r => do
      let source ← cut elements (r * columns) ((r + 1) * columns)
      normalizeRow source columns (r * columns)) 0 (rows * columns)
      (.ok ((List.range rows).flatMap fun r => Softmax.normalize (row r).toList)) := by
    apply Fills.forM_range_ok
    · intro r hr
      rw [Softmax.length_normalize, Array.length_toList, (hrow r hr).2]
    · intro r hr
      apply Fills.read_ok (hrow r hr).1
      have hfills := fills_normalizeRow (row r) (r * columns)
      rw [(hrow r hr).2] at hfills
      rw [Nat.zero_add]
      exact hfills
  rw [normalizeRows, get_bind_apply, helements, hbuffer, hrows, read_ok_bind_apply,
    read_ok_bind_apply, Nat.min_self, hlists]
  exact hloop.run hbuffer

end Rows

theorem softmax_realizes (input : Tensor) : Realizes (softmax input) (Kernel.softmax input) := by
  intro output
  rw [softmax, get_bind_apply]
  apply requireSingle_step
  intro x hx
  apply requireSingle_step
  intro y hy
  apply shape_step
  intro (hshape : input.shape = output.shape)
  by_cases hrank : input.shape.rank = 2
  · obtain ⟨rows, columns, hdims⟩ := List.length_eq_two.mp hrank
    have hread : entry input.shape.dims 1 = .ok columns := by
      rw [hdims]
      rfl
    have hcount : x.size = rows * columns := by
      rw [Tensor.size_of_elements? hx, Shape.count, hdims]
      simp
    have hlength : ((Softmax.rowsOf columns rows x.toList).flatMap
        Softmax.normalize).length = rows * columns :=
      Softmax.length_normalized_rows (by rw [Array.length_toList, hcount])
    rw [if_pos hrank, hread, read_ok_bind_apply, hdims]
    by_cases hcolumns : columns = 0
    · rw [if_pos hcolumns]
      dsimp only
      rw [if_pos hcolumns]
      rfl
    · rw [if_neg hcolumns, singles_eq_ok hx, read_ok_bind_apply]
      dsimp only
      rw [if_neg hcolumns]
      apply onElements_ending (Tensor.exists_elements?_iff.mp ⟨y, hy⟩)
      · rw [List.size_toArray, hlength, ← hcount, Tensor.size_of_elements? hx, hshape]
      · intro elements helements
        apply normalizeRows_run hcolumns hcount
        rw [helements, List.size_toArray, hlength]
  · rw [if_neg hrank]
    split
    · next rows columns hdims =>
        refine absurd ?_ hrank
        rw [Shape.rank, hdims]
        rfl
    · rfl

end InPlace
end NetImport
