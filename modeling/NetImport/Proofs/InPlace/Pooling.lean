import NetImport.Proofs.InPlace.Convolution
import NetImport.Proofs.Kernel.Pooled

/-!
# The pooling routine

The routine takes the input apart into planes and each plane into the rows of a window.  A
window that begins beyond the last column asks for a slice that ends before it begins: this
is the one fault of all routines, and it happens where the kernel reports such a window.
-/

namespace NetImport
namespace InPlace

/-! ## Windows -/

/-- The places of a window on one axis, cut to the input. -/
def span (kernel start padding extent : Nat) : Nat × Nat :=
  let first : Int := (start : Int) - (padding : Int)
  ((max first 0).toNat, min (max (first + kernel) 0).toNat extent)

/-- What a window has gathered: its greatest element, the sum and the number of its cells. -/
structure Gathered where
  top : Float32
  sum : Float32
  count : Nat

namespace Gathered

def empty : Gathered := ⟨minusInfinity, 0.0, 0⟩

def add (gathered : Gathered) (x : Float32) : Gathered :=
  ⟨greater gathered.top x, gathered.sum + x, gathered.count + 1⟩

def value (gathered : Gathered) : PoolMode → Float32
  | .max => gathered.top
  | .average =>
      if gathered.count = 0 then 0.0 else gathered.sum / Binary.singleOfInt gathered.count

end Gathered

def gather (plane : Array Float32) (width : Nat) (rows columns : Nat × Nat) :
    Except Stop Gathered :=
  (List.range' rows.1 (rows.2 - rows.1)).foldlM (fun gathered row => do
    let line ← cut plane (row * width + columns.1) (row * width + columns.2)
    return line.foldl Gathered.add gathered) Gathered.empty

def poolCell (pool : Pooling) (plane : Array Float32) (input : Plane) (row column : Nat) :
    Except Stop Float32 := do
  let rows := span pool.window.kernel.height (row * pool.window.stride.height)
    pool.window.padding.top input.height
  let columns := span pool.window.kernel.width (column * pool.window.stride.width)
    pool.window.padding.left input.width
  let gathered ← gather plane input.width rows columns
  return gathered.value pool.mode

def poolPlanes (pool : Pooling) (input : Plane) (planes rows columns : Nat)
    (x : Array Float32) : Routine (Array Float32) Unit :=
  (List.range planes).forM fun p => do
    let plane ← cut x (p * input.height * input.width) ((p + 1) * input.height * input.width)
    (List.range rows).forM fun row =>
      (List.range columns).forM fun column => do
        let value ← poolCell pool plane input row column
        store ((p * rows + row) * columns + column) value

def poolingShape (pool : Pooling) (input : Shape) : Except Stop Shape :=
  if input.rank ≠ 4 then
    .error (.refused (.invalidArgument "pool2d" s!"expected an NCHW input, got {input.text}"))
  else do
    let height ← entry input.dims 2
    let width ← entry input.dims 3
    match ← windowOutput pool.window ⟨height, width⟩ with
    | some out => do
        let batch ← entry input.dims 0
        let channels ← entry input.dims 1
        return ⟨[batch, channels, out.height, out.width]⟩
    | none =>
        .error (.refused (.invalidArgument "pool2d"
          (s!"kernel {pool.window.kernel.text} with stride {pool.window.stride.text} " ++
            s!"does not fit input {input.text}")))

def pooling (pool : Pooling) (input : Tensor) : Routine Storage Unit := do
  let output ← get
  requireSingleDType "pool2d" input.dtype
  requireSingleDType "pool2d" output.dtype
  let expected ← poolingShape pool input.shape
  Kernel.requireShape "pool2d (output)" expected output.shape
  let batch ← entry input.shape.dims 0
  let channels ← entry input.shape.dims 1
  let height ← entry input.shape.dims 2
  let width ← entry input.shape.dims 3
  let rows ← entry expected.dims 2
  let columns ← entry expected.dims 3
  let x ← singles input
  onSingles (poolPlanes pool ⟨height, width⟩ (batch * channels) rows columns x)

/-! ## Cells -/

/-- A window past the edge is a fault of the routine. -/
def atEdge {α : Type} : Except TensorError α → Except Stop α
  | .ok value => .ok value
  | .error _ => .error .fault

theorem span_eq (kernel start padding extent : Nat) :
    span kernel start padding extent = Pooling.span kernel start padding extent := by
  simp only [span, Pooling.span, Prod.mk.injEq]
  omega

theorem foldl_add (values : List Float32) (gathered : Gathered) :
    values.foldl Gathered.add gathered =
      ⟨values.foldl greater gathered.top, values.foldl (· + ·) gathered.sum,
        gathered.count + values.length⟩ := by
  induction values generalizing gathered with
  | nil => rfl
  | cons x values ih =>
      rw [List.foldl_cons, ih]
      simp [Gathered.add, Nat.add_assoc, Nat.add_comm 1]

theorem value_foldl_add (values : List Float32) (mode : PoolMode) :
    (values.foldl Gathered.add Gathered.empty).value mode = Pooling.reduce mode values := by
  rw [foldl_add]
  cases mode with
  | max => rfl
  | average => cases values <;> simp [Gathered.value, Gathered.empty, Pooling.reduce]

theorem poolingShape_eq (pool : Pooling) (input : Shape) :
    poolingShape pool input = liftM (pool.outputShape input) := by
  rw [poolingShape, Pooling.outputShape]
  by_cases hrank : input.rank = 4
  · obtain ⟨batch, channels, height, width, hdims⟩ := exists_four hrank
    simp only [hdims, entry_first, entry_second, entry_third, entry_fourth, ok_bind,
      windowOutput_eq_ok]
    rw [if_neg (by simp [hrank])]
    cases pool.window.output? ⟨height, width⟩ <;> rfl
  · rw [if_pos hrank]
    split
    · next hdims =>
        refine absurd ?_ hrank
        rw [Shape.rank, hdims]
        rfl
    · rfl

section Planes

variable {plane : Array Float32} {cell : Nat → Nat → Float32} {input : Plane}
  (hsize : plane.size = input.height * input.width)
  (hplane : ∀ row < input.height, ∀ column < input.width,
    plane[row * input.width + column]? = some (cell row column))
include hsize hplane

/-- The slice of one row of a window holds the cells of that row. -/
theorem cut_row {row first last : Nat} (hrow : row < input.height) (horder : first ≤ last)
    (hlast : last ≤ input.width) :
    ∃ line, cut plane (row * input.width + first) (row * input.width + last) = .ok line ∧
      line.toList = (List.range' first (last - first)).map (cell row) := by
  have hend : row * input.width + last ≤ plane.size := by
    have hroom : (row + 1) * input.width ≤ input.height * input.width :=
      Nat.mul_le_mul_right _ hrow
    rw [Nat.succ_mul] at hroom
    omega
  have hwidth : row * input.width + last = row * input.width + first + (last - first) := by omega
  refine ⟨_, cut_eq_ok (Nat.add_le_add_left horder _) hend, ?_⟩
  rw [hwidth, toList_extract 0.0 (hwidth ▸ hend), List.range'_eq_map_range, List.map_map]
  apply List.map_congr_left
  intro i hi
  have hinside : i < last - first := List.mem_range.mp hi
  have hcell := hplane row hrow (first + i) (by omega)
  simp [Nat.add_assoc, hcell]

theorem gather_eq {rows columns : Nat × Nat} (hrows : rows.2 ≤ input.height)
    (hcolumns : columns.2 ≤ input.width) :
    gather plane input.width rows columns =
      atEdge ((fun values => values.foldl Gathered.add Gathered.empty) <$>
        Pooling.cells cell rows columns) := by
  rw [gather, Pooling.cells]
  by_cases horder : columns.1 ≤ columns.2
  · have hlines : ((List.range' rows.1 (rows.2 - rows.1)).mapM fun row => do
        return (← Pooling.places columns).map (cell row)) =
        .ok ((List.range' rows.1 (rows.2 - rows.1)).map fun row =>
          (List.range' columns.1 (columns.2 - columns.1)).map (cell row)) := by
      apply mapM_eq_ok_map
      intro row hrow
      rw [Pooling.places, if_pos horder]
      rfl
    have hrounds : (List.range' rows.1 (rows.2 - rows.1)).foldlM (fun gathered row => do
        let line ← cut plane (row * input.width + columns.1) (row * input.width + columns.2)
        return line.foldl Gathered.add gathered) Gathered.empty =
        .ok ((List.range' rows.1 (rows.2 - rows.1)).foldl (fun gathered row =>
          ((List.range' columns.1 (columns.2 - columns.1)).map (cell row)).foldl Gathered.add
            gathered) Gathered.empty) := by
      apply foldlM_eq_ok_foldl
      intro row hrow gathered
      have hinside : row < input.height := by
        have hbounds := List.mem_range'_1.mp hrow
        omega
      obtain ⟨line, hline, hcells⟩ := cut_row hsize hplane hinside horder hcolumns
      rw [hline, ok_bind, ← Array.foldl_toList, hcells]
      rfl
    rw [hrounds, hlines, ok_bind]
    change _ = atEdge (.ok _)
    simp only [atEdge, ← List.flatMap_def, List.foldl_flatMap]
  · cases List.range' rows.1 (rows.2 - rows.1) with
    | nil => rfl
    | cons row rest =>
        have hcut : cut plane (row * input.width + columns.1) (row * input.width + columns.2) =
            .error .fault := if_neg (by omega)
        rw [List.foldlM_cons, hcut, List.mapM_cons, Pooling.places, if_neg horder]
        rfl

theorem poolCell_eq (pool : Pooling) (row column : Nat) :
    poolCell pool plane input row column = atEdge (pool.cell cell input row column) := by
  rw [poolCell, Pooling.cell, span_eq, span_eq, gather_eq hsize hplane]
  · cases Pooling.cells cell
      (Pooling.span pool.window.kernel.height (row * pool.window.stride.height)
        pool.window.padding.top input.height)
      (Pooling.span pool.window.kernel.width (column * pool.window.stride.width)
        pool.window.padding.left input.width) with
    | error reason => rfl
    | ok values => exact congrArg Except.ok (value_foldl_add values pool.mode)
  · exact Nat.min_le_right ..
  · exact Nat.min_le_right ..

end Planes

/-! ## The loops over the result -/

theorem atEdge_mapM {α β : Type} (f : α → Except TensorError β) (xs : List α) :
    (xs.mapM fun x => atEdge (f x)) = atEdge (xs.mapM f) := by
  induction xs with
  | nil => rfl
  | cons x xs ih =>
      rw [List.mapM_cons, List.mapM_cons, ih]
      cases f x <;> cases xs.mapM f <;> rfl

/-- The cells of a plane of the input. -/
def planeOf (x : Array Float32) (input : Plane) (p row column : Nat) : Float32 :=
  x.getD ((p * input.height + row) * input.width + column) 0.0

theorem exists_plane {x : Array Float32} {input : Plane} {planes p : Nat}
    (hsize : x.size = planes * (input.height * input.width)) (hp : p < planes) :
    ∃ plane, cut x (p * input.height * input.width) ((p + 1) * input.height * input.width) =
        .ok plane ∧
      plane.size = input.height * input.width ∧
      ∀ row < input.height, ∀ column < input.width,
        plane[row * input.width + column]? = some (planeOf x input p row column) := by
  have hstop : (p + 1) * input.height * input.width =
      p * input.height * input.width + input.height * input.width := by
    rw [Nat.succ_mul, Nat.add_mul]
  have hend : (p + 1) * input.height * input.width ≤ x.size := by
    rw [hsize, Nat.mul_assoc]
    exact Nat.mul_le_mul_right _ hp
  refine ⟨_, cut_eq_ok (by omega) hend, ?_, fun row hrow column hcolumn => ?_⟩
  · rw [Array.size_extract]
    omega
  · have hinside : row * input.width + column < input.height * input.width :=
      mul_add_lt_mul hrow hcolumn
    have hplace : p * input.height * input.width + (row * input.width + column) =
        (p * input.height + row) * input.width + column := by
      rw [Nat.add_mul, Nat.add_assoc]
    have hbound : (p * input.height + row) * input.width + column < x.size := by omega
    rw [Array.getElem?_extract_of_lt (by omega), planeOf]
    simp [hplace, hbound]

theorem fills_poolPlanes {pool : Pooling} {input : Plane} {planes rows columns : Nat}
    {x : Array Float32} (hsize : x.size = planes * (input.height * input.width)) :
    Fills (poolPlanes pool input planes rows columns x) 0 (product [planes, rows, columns])
      (atEdge ((Shape.coordinates ⟨[planes, rows, columns]⟩).mapM fun
        | [p, row, column] => pool.cell (planeOf x input p) input row column
        | _ => .ok 0.0)) := by
  rw [← atEdge_mapM]
  apply Fills.forM_axis
  intro p hp
  obtain ⟨plane, hplane, hplaneSize, hcells⟩ := exists_plane hsize hp
  apply Fills.read_ok hplane
  apply Fills.forM_axis
  intro row hrow
  apply Fills.forM_axis
  intro column hcolumn
  apply Fills.store_cell
  · simp [Nat.add_mul, Nat.mul_assoc]
  · exact (poolCell_eq hplaneSize hcells pool row column).symm

/-! ## Planes -/

theorem range_mul (a b : Nat) :
    List.range (a * b) = (List.range a).flatMap fun n => (List.range b).map (n * b + ·) := by
  induction a with
  | zero => simp
  | succ a ih => rw [Nat.succ_mul, List.range_add, ih, List.range_succ, List.flatMap_append,
      List.flatMap_singleton]

/-- Takes the first two axes for one. -/
def mergeFirst (b : Nat) : List Nat → List Nat
  | n :: c :: rest => (n * b + c) :: rest
  | coords => coords

theorem map_mergeFirst_coordinates (a b : Nat) (dims : List Nat) :
    (Shape.coordinates ⟨a :: b :: dims⟩).map (mergeFirst b) =
      Shape.coordinates ⟨a * b :: dims⟩ := by
  simp only [Shape.coordinates_cons, range_mul, List.map_flatMap, List.map_map,
    List.flatMap_assoc, List.flatMap_map]
  rfl

/-- The values of a kernel for each image and channel are those for each plane. -/
theorem mapM_planes (a b c d : Nat) (cell : Nat → Nat → Nat → Except TensorError Float32) :
    ((Shape.coordinates ⟨[a, b, c, d]⟩).mapM fun
      | [n, channel, row, column] => cell (n * b + channel) row column
      | _ => .ok 0.0) =
      (Shape.coordinates ⟨[a * b, c, d]⟩).mapM fun
        | [p, row, column] => cell p row column
        | _ => .ok 0.0 := by
  rw [← map_mergeFirst_coordinates, List.mapM_map]
  congr 1
  funext coords
  rcases coords with _ | ⟨n, _ | ⟨channel, _ | ⟨row, _ | ⟨column, _ | ⟨extra, rest⟩⟩⟩⟩⟩ <;> rfl

/-! ## Routine and kernel -/

/-- A routine ends as the kernel does, but for a window past the edge. -/
def EndsAs (output : Tensor) (result : Except TensorError Tensor)
    (run : EStateM.Result Stop Storage Unit) : Prop :=
  run = ending output result ∨
    result = .error .windowPastEdge ∧ ∃ left, run = .error .fault left

namespace EndsAs

variable {α : Type} {output : Tensor}

theorem check {check : Except TensorError α} {work : α → Routine Storage Unit}
    {rest : α → Except TensorError Tensor}
    (hrest : ∀ value, check = .ok value →
      EndsAs output (rest value) (work value output.storage)) :
    EndsAs output (check >>= rest)
      (((liftM check : Routine Storage α) >>= work) output.storage) := by
  cases hcheck : check with
  | error reason => exact .inl rfl
  | ok value => exact hrest value hcheck

theorem requireSingle (op : String) (tensor : Tensor) {work : Routine Storage Unit}
    {rest : Array Float32 → Except TensorError Tensor}
    (hrest : ∀ elements, tensor.elements? .f32 = some elements →
      EndsAs output (rest elements) (work output.storage)) :
    EndsAs output (Kernel.requireSingle op tensor >>= rest)
      (((liftM (requireSingleDType op tensor.dtype) : Routine Storage Unit) >>= fun _ => work)
        output.storage) := by
  rw [requireSingle_bind]
  apply check
  intro _ hdtype
  obtain ⟨elements, helements, hrequired⟩ := exists_elements_of_requireSingleDType hdtype
  rw [hrequired, ok_bind]
  exact hrest elements helements

/-- A routine that fills the output with the values of a kernel, as far as there are any. -/
theorem onSingles {body : Routine (Array Float32) Unit}
    {values : Except TensorError (List Float32)} (hdtype : output.dtype = .f32)
    (hbody : Fills body 0 output.shape.count (atEdge values))
    (hlength : ∀ elements, values = .ok elements → elements.length = output.shape.count)
    (hreason : ∀ reason, values = .error reason → reason = .windowPastEdge) :
    EndsAs output (values >>= fun elements => Tensor.ofArray .f32 output.shape elements.toArray)
      (InPlace.onSingles body output.storage) := by
  cases hvalues : values with
  | ok elements =>
      rw [hvalues] at hbody
      refine .inl (onElements_ending hdtype (hlength elements hvalues) fun buffer hbuffer => ?_)
      exact hbody.run (hbuffer.trans (hlength elements hvalues))
  | error reason =>
      obtain rfl := hreason reason hvalues
      refine .inr ⟨rfl, ?_⟩
      obtain ⟨own, shape, data, hdata⟩ := output
      obtain rfl : own = .f32 := hdtype
      rw [hvalues] at hbody
      obtain ⟨left, hleft⟩ := hbody data.toList hdata [] [] rfl
      rw [List.nil_append, List.append_nil, Array.toArray_toList] at hleft
      refine ⟨⟨.f32, shape, left⟩, ?_⟩
      simp [InPlace.onSingles, onElements, Tensor.storage, hleft]

end EndsAs

theorem windowPastEdge_of_cell {pool : Pooling} {cell : Nat → Nat → Float32} {input : Plane}
    {row column : Nat} {reason : TensorError}
    (hstop : pool.cell cell input row column = .error reason) : reason = .windowPastEdge := by
  by_cases hmisses : pool.Misses input row column
  · rw [hmisses.cell_eq] at hstop
    exact (Except.error.inj hstop).symm
  · rw [Pooling.cell_eq_of_not_misses hmisses] at hstop
    cases hstop

theorem pooling_endsAs (pool : Pooling) (input output : Tensor) :
    EndsAs output (Kernel.pooling pool input output) (pooling pool input output.storage) := by
  rw [pooling, get_bind_apply, poolingShape_eq]
  apply EndsAs.requireSingle
  intro x hx
  apply EndsAs.requireSingle
  intro y hy
  apply EndsAs.check
  intro expected hexpected
  apply EndsAs.check
  intro _ hshape
  obtain rfl : expected = output.shape := Kernel.requireShape_eq_ok_iff.mp hshape
  obtain ⟨batch, channels, height, width, rows, columns, hinput, houtput⟩ :=
    Pooling.dims_of_outputShape hexpected
  have hsize : x.size = batch * channels * (height * width) := by
    rw [Tensor.size_of_elements? hx, Shape.count, hinput]
    simp [Nat.mul_assoc]
  have hshape : output.shape = ⟨[batch, channels, rows, columns]⟩ := congrArg Shape.mk houtput
  have hloops := @fills_poolPlanes pool ⟨height, width⟩ (batch * channels) rows columns x hsize
  rw [← mapM_planes] at hloops
  simp only [hinput, houtput, entry_first, entry_second, entry_third, entry_fourth,
    read_ok_bind_apply, singles_eq_ok hx]
  change EndsAs output (_ >>= fun values : List Float32 =>
    Tensor.ofArray .f32 output.shape values.toArray) _
  apply EndsAs.onSingles (Tensor.exists_elements?_iff.mp ⟨y, hy⟩)
  · rw [hshape, Shape.count, product_cons, product_cons, ← Nat.mul_assoc, ← product_cons]
    exact hloops
  · intro elements hvalues
    rw [length_of_mapM_eq_ok hvalues, Shape.length_coordinates]
  · intro reason hvalues
    obtain ⟨coords, -, hstop⟩ := exists_mem_of_mapM_eq_error hvalues
    split at hstop
    · exact windowPastEdge_of_cell hstop
    · cases hstop

end InPlace
end NetImport
