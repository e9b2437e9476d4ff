import NetImport.Proofs.Kernel.Images
import NetImport.Proofs.Kernel.Reduction
import NetImport.Proofs.Kernel.Windows
import NetImport.Proofs.Tensor.Stacks

/-!
# Pooled images

Pooling reduces the pixels under a window that lie inside the image, row by row.  It stops
where a window with pixels in some row begins beyond the right edge, and nowhere else.
-/

namespace NetImport

/-- A window at one of its stops lies over a place. -/
def windowReaches (kernel stride padding stop place : Nat) : Bool :=
  windowPlace stride padding stop 0 ≤ place && place < windowPlace stride padding stop kernel

theorem windowReaches_iff {kernel stride padding stop place : Nat} :
    windowReaches kernel stride padding stop place = true ↔
      windowPlace stride padding stop 0 ≤ place ∧
        (place : Int) < windowPlace stride padding stop kernel := by
  simp [windowReaches]

namespace Window

def reachesRow (window : Window) (stop row : Nat) : Bool :=
  windowReaches window.kernel.height window.stride.height window.padding.top stop row

def reachesColumn (window : Window) (stop column : Nat) : Bool :=
  windowReaches window.kernel.width window.stride.width window.padding.left stop column

/-- The places of a plane that lie under a window, row by row. -/
def planeCells (window : Window) (plane : Plane) (row column : Nat) : List (Nat × Nat) :=
  (List.range plane.height ×ˢ List.range plane.width).filter fun (r, q) =>
    window.reachesRow row r && window.reachesColumn column q

theorem mem_planeCells {window : Window} {plane : Plane} {row column r q : Nat}
    (hcell : (r, q) ∈ window.planeCells plane row column) : r < plane.height ∧ q < plane.width := by
  have hmem := List.mem_of_mem_filter hcell
  simpa using hmem

end Window

/-- The places of a range that lie between two bounds. -/
theorem filter_range_between {between : Nat → Bool} {first last extent : Nat}
    (hlast : last ≤ extent)
    (hbetween : ∀ place < extent, between place = true ↔ first ≤ place ∧ place < last) :
    (List.range extent).filter between = List.range' first (last - first) := by
  induction extent generalizing last with
  | zero =>
      obtain rfl := Nat.le_zero.mp hlast
      simp
  | succ extent ih =>
      have hplace := hbetween extent (Nat.lt_succ_self extent)
      have hbelow : ∀ place < extent, between place = true ↔
          first ≤ place ∧ place < min last extent := by
        intro place hextent
        rw [hbetween place (Nat.lt_succ_of_lt hextent)]
        omega
      rw [List.range_succ, List.filter_append, ih (Nat.min_le_right last extent) hbelow]
      by_cases hinside : first ≤ extent ∧ extent < last
      · have hcount : last - first = min last extent - first + 1 := by omega
        have hnext : first + (min last extent - first) = extent := by omega
        rw [List.filter_singleton, hplace.mpr hinside, hcount, List.range'_1_concat, hnext]
        rfl
      · have hcount : min last extent - first = last - first := by omega
        have houtside : between extent = false :=
          Bool.eq_false_iff.mpr fun hreached => hinside (hplace.mp hreached)
        rw [List.filter_singleton, houtside, hcount]
        exact List.append_nil _

/-- The range of places that a window covers is what it reaches of the input. -/
theorem range'_span (kernel stride padding extent stop : Nat) :
    let places := Pooling.span kernel (stop * stride) padding extent
    List.range' places.1 (places.2 - places.1) =
      (List.range extent).filter (windowReaches kernel stride padding stop) := by
  refine (filter_range_between (Nat.min_le_right ..) fun place hplace => ?_).symm
  rw [windowReaches_iff]
  unfold windowPlace Pooling.span
  omega

namespace Pooling

variable {pool : Pooling} {plane : Plane} {x : Nat → Nat → Float32} {row column : Nat}

/-- A window with pixels in some row begins beyond the right edge. -/
structure Misses (pool : Pooling) (plane : Plane) (row column : Nat) : Prop where
  reached : ∃ r < plane.height, pool.window.reachesRow row r = true
  beyond : (plane.width : Int) < pool.window.columnAt column 0

theorem places_span_eq (kernel stride padding extent stop : Nat) :
    places (span kernel (stop * stride) padding extent) =
      if (extent : Int) < windowPlace stride padding stop 0 then .error .windowPastEdge
      else .ok ((List.range extent).filter (windowReaches kernel stride padding stop)) := by
  have hiff : (span kernel (stop * stride) padding extent).1 ≤
      (span kernel (stop * stride) padding extent).2 ↔
        ¬(extent : Int) < windowPlace stride padding stop 0 := by
    unfold span windowPlace
    omega
  by_cases hbeyond : (extent : Int) < windowPlace stride padding stop 0
  · rw [if_pos hbeyond, places, if_neg (hiff.not.mpr (not_not.mpr hbeyond))]
  · rw [if_neg hbeyond, places, if_pos (hiff.mpr hbeyond)]
    exact congrArg Except.ok (range'_span kernel stride padding extent stop)

theorem planeCells_eq_product (window : Window) (plane : Plane) (row column : Nat) :
    window.planeCells plane row column =
      (List.range plane.height).filter (window.reachesRow row) ×ˢ
        (List.range plane.width).filter (window.reachesColumn column) :=
  (product_filter_filter ..).symm

/-- What the rows and columns under a window are cut to. -/
theorem cells_span_eq :
    cells x (span pool.window.kernel.height (row * pool.window.stride.height)
        pool.window.padding.top plane.height)
      (span pool.window.kernel.width (column * pool.window.stride.width)
        pool.window.padding.left plane.width) =
      List.flatten <$> ((List.range plane.height).filter (pool.window.reachesRow row)).mapM fun r =>
        List.map (x r) <$>
          (if (plane.width : Int) < pool.window.columnAt column 0 then .error .windowPastEdge
          else .ok ((List.range plane.width).filter (pool.window.reachesColumn column)) :
            Except TensorError (List Nat)) := by
  unfold cells
  rw [places_span_eq, range'_span]
  rfl

theorem Misses.cells_eq (hmisses : pool.Misses plane row column) :
    cells x (span pool.window.kernel.height (row * pool.window.stride.height)
        pool.window.padding.top plane.height)
      (span pool.window.kernel.width (column * pool.window.stride.width)
        pool.window.padding.left plane.width) = .error .windowPastEdge := by
  rw [cells_span_eq, if_pos hmisses.beyond]
  obtain ⟨r, hr, hreached⟩ := hmisses.reached
  have hmem : r ∈ (List.range plane.height).filter (pool.window.reachesRow row) :=
    List.mem_filter.mpr ⟨List.mem_range.mpr hr, hreached⟩
  obtain ⟨first, others, hrows⟩ := List.exists_cons_of_ne_nil (List.ne_nil_of_mem hmem)
  rw [hrows]
  rfl

theorem cells_eq_of_not_misses (hmisses : ¬pool.Misses plane row column) :
    cells x (span pool.window.kernel.height (row * pool.window.stride.height)
        pool.window.padding.top plane.height)
      (span pool.window.kernel.width (column * pool.window.stride.width)
        pool.window.padding.left plane.width) =
      .ok ((pool.window.planeCells plane row column).map fun (r, q) => x r q) := by
  rw [cells_span_eq, planeCells_eq_product]
  by_cases hbeyond : (plane.width : Int) < pool.window.columnAt column 0
  · -- no row is reached, so that no column is asked for
    have hrows : (List.range plane.height).filter (pool.window.reachesRow row) = [] := by
      refine List.filter_eq_nil_iff.mpr fun r hr hreached => hmisses ⟨⟨r, ?_, hreached⟩, hbeyond⟩
      exact List.mem_range.mp hr
    rw [hrows]
    rfl
  · rw [if_neg hbeyond]
    have hlines : ((List.range plane.height).filter (pool.window.reachesRow row)).mapM (fun r =>
        List.map (x r) <$> (.ok ((List.range plane.width).filter
          (pool.window.reachesColumn column)) : Except TensorError (List Nat))) =
        .ok (((List.range plane.height).filter (pool.window.reachesRow row)).map fun r =>
          ((List.range plane.width).filter (pool.window.reachesColumn column)).map (x r)) :=
      List.mapM_pure
    rw [hlines]
    simp only [SProd.sprod, List.product, List.map_flatMap, List.map_map]
    rfl

/-- The reduction of numbers that are looked up, where all of them are found: the greatest one,
or the mean, which is zero without any numbers. -/
def value? (mode : PoolMode) (cells : List (Nat × Nat)) (x : Nat → Nat → Option Float32) :
    Option Float32 :=
  match mode with
  | .max => cells.foldlM (fun best (r, q) => do return greater best (← x r q)) minusInfinity
  | .average =>
      if cells = [] then some 0.0
      else do
        let sum ← cells.foldlM (fun sum (r, q) => do return sum + (← x r q)) 0.0
        return sum / Binary.singleOfInt cells.length

theorem value?_eq_some {mode : PoolMode} {places : List (Nat × Nat)}
    {y : Nat → Nat → Option Float32} (hx : ∀ {r q}, (r, q) ∈ places → y r q = some (x r q)) :
    value? mode places y = some (reduce mode (places.map fun (r, q) => x r q)) := by
  cases mode with
  | max =>
      have hfold :
          places.foldlM (fun best (r, q) => do return greater best (← y r q)) minusInfinity =
          some (places.foldl (fun best (r, q) => greater best (x r q)) minusInfinity) :=
        foldlM_eq_some_foldl (fun (r, q) hmem best => by simp [hx hmem]) _
      rw [value?, hfold, reduce, List.foldl_map]
  | average =>
      have hfold : places.foldlM (fun sum (r, q) => do return sum + (← y r q)) 0.0 =
          some (places.foldl (fun sum (r, q) => sum + x r q) 0.0) :=
        foldlM_eq_some_foldl (fun (r, q) hmem sum => by simp [hx hmem]) _
      unfold value? reduce
      dsimp only
      by_cases hempty : places = []
      · rw [if_pos hempty, hempty]
        rfl
      · have hnonempty : (places.map fun (r, q) => x r q).isEmpty = false := by
          simpa using hempty
        rw [if_neg hempty, hfold, hnonempty, List.foldl_map, List.length_map]
        rfl

/-! ## Pooling batches of images -/

def resultDims (pool : Pooling) (dims : ImageDims) : ImageDims where
  count := dims.count
  channels := dims.channels
  height := (pool.window.result ⟨dims.height, dims.width⟩).height
  width := (pool.window.result ⟨dims.height, dims.width⟩).width

/-- The pixels of the result. -/
def pooled (pool : Pooling) (dims : ImageDims) (pixels : Pixels) : Pixels :=
  fun n channel row column =>
    reduce pool.mode ((pool.window.planeCells ⟨dims.height, dims.width⟩ row column).map
      fun (r, q) => pixels n channel r q)

/-- There is an image, some window has pixels in some row, and some window begins beyond the
right edge. -/
structure PastEdge (pool : Pooling) (dims : ImageDims) : Prop where
  planes : 0 < dims.count * dims.channels
  row : ∃ row < (pool.resultDims dims).height, ∃ r < dims.height,
    pool.window.reachesRow row r = true
  column : ∃ column < (pool.resultDims dims).width,
    (dims.width : Int) < pool.window.columnAt column 0

instance (pool : Pooling) (dims : ImageDims) : Decidable (pool.PastEdge dims) :=
  decidable_of_iff
    (0 < dims.count * dims.channels ∧
      (∃ row < (pool.resultDims dims).height, ∃ r < dims.height,
        pool.window.reachesRow row r = true) ∧
      ∃ column < (pool.resultDims dims).width,
        (dims.width : Int) < pool.window.columnAt column 0)
    ⟨fun hedge => ⟨hedge.1, hedge.2.1, hedge.2.2⟩,
      fun hedge => ⟨hedge.planes, hedge.row, hedge.column⟩⟩

/-- What pooling comes to. -/
def outcome (pool : Pooling) (dims : ImageDims) (pixels : Pixels) : Except TensorError Pixels :=
  if pool.PastEdge dims then .error .windowPastEdge else .ok (pool.pooled dims pixels)

theorem outputShape_eq_ok_iff {dims : ImageDims} {shape : Shape} :
    pool.outputShape ⟨dims.stored .channelsFirst⟩ = .ok shape ↔
      pool.window.Fits ⟨dims.height, dims.width⟩ ∧
        shape = ⟨(pool.resultDims dims).stored .channelsFirst⟩ := by
  simp only [outputShape, ImageDims.stored, Lowering.StorageOrder.arrange]
  constructor
  · intro hshape
    split at hshape
    · next out hout =>
        obtain ⟨hfits, rfl⟩ := Window.output?_eq_some_iff.mp hout
        obtain rfl := Except.ok.inj hshape
        exact ⟨hfits, rfl⟩
    · cases hshape
  · rintro ⟨hfits, rfl⟩
    rw [Window.output?_eq_some_iff.mpr ⟨hfits, rfl⟩]
    rfl

theorem Misses.cell_eq (hmisses : pool.Misses plane row column) :
    pool.cell x plane row column = .error .windowPastEdge := by
  rw [cell, hmisses.cells_eq]
  rfl

theorem cell_eq_of_not_misses (hmisses : ¬pool.Misses plane row column) :
    pool.cell x plane row column =
      .ok (reduce pool.mode ((pool.window.planeCells plane row column).map
        fun (r, q) => x r q)) := by
  rw [cell, cells_eq_of_not_misses hmisses]
  rfl

theorem PastEdge.of_misses {dims : ImageDims} {n channel : Nat}
    (hcontains : (pool.resultDims dims).Contains n channel row column)
    (hmisses : pool.Misses ⟨dims.height, dims.width⟩ row column) : pool.PastEdge dims := by
  have hcount : 0 < dims.count := Nat.zero_lt_of_lt hcontains.count
  have hchannels : 0 < dims.channels := Nat.zero_lt_of_lt hcontains.channel
  exact ⟨Nat.mul_pos hcount hchannels, ⟨row, hcontains.row, hmisses.reached⟩,
    ⟨column, hcontains.column, hmisses.beyond⟩⟩

theorem PastEdge.exists_misses {dims : ImageDims} (hedge : pool.PastEdge dims) :
    ∃ row column, (pool.resultDims dims).Contains 0 0 row column ∧
      pool.Misses ⟨dims.height, dims.width⟩ row column := by
  obtain ⟨row, hrow, hreached⟩ := hedge.row
  obtain ⟨column, hcolumn, hbeyond⟩ := hedge.column
  have hcount : 0 < dims.count := Nat.pos_of_mul_pos_right hedge.planes
  have hchannels : 0 < dims.channels := Nat.pos_of_mul_pos_left hedge.planes
  exact ⟨row, column, ⟨hcount, hchannels, hrow, hcolumn⟩, hreached, hbeyond⟩

end Pooling

namespace Kernel

variable {pool : Pooling} {dims : ImageDims} {pixels : Pixels} {data : Array Float32}

/-- The cell that the kernel computes at some coordinates. -/
def pooledCell (pool : Pooling) (dims : ImageDims) (data : Array Float32) :
    List Nat → Except TensorError Float32
  | [n, channel, row, column] =>
      pool.cell (fun r q =>
        data.getD (((n * dims.channels + channel) * dims.height + r) * dims.width + q) 0.0)
        ⟨dims.height, dims.width⟩ row column
  | _ => .ok 0.0

theorem exists_contains_of_mem {coords : List Nat}
    (hmem : coords ∈ Shape.coordinates ⟨dims.stored .channelsFirst⟩) :
    ∃ n channel row column, coords = [n, channel, row, column] ∧
      dims.Contains n channel row column := by
  have hinside : inBounds (dims.stored .channelsFirst) coords :=
    Shape.inBounds_of_mem_coordinates hmem
  obtain ⟨n, channel, row, column, rfl, -⟩ := coords_of_inBounds_four hinside
  exact ⟨n, channel, row, column, rfl,
    (@ImageDims.inBounds_stored_iff _ .channelsFirst _ _ _ _).mp hinside⟩

theorem pooling_eq {hdata : data.size = Shape.count ⟨dims.stored .channelsFirst⟩} {output : Tensor}
    (hfits : pool.window.Fits ⟨dims.height, dims.width⟩)
    (houtput : output.type = ⟨.f32, ⟨(pool.resultDims dims).stored .channelsFirst⟩⟩) :
    pooling pool ⟨.f32, ⟨dims.stored .channelsFirst⟩, data, hdata⟩ output =
      ((Shape.coordinates ⟨(pool.resultDims dims).stored .channelsFirst⟩).mapM
        (pooledCell pool dims data) >>= fun values =>
          Tensor.ofArray .f32 ⟨(pool.resultDims dims).stored .channelsFirst⟩ values.toArray) := by
  obtain ⟨_, _, previous, hprevious⟩ := output
  obtain ⟨rfl, rfl⟩ := TensorType.mk.inj houtput
  have hx : requireSingle "pool2d" ⟨.f32, ⟨dims.stored .channelsFirst⟩, data, hdata⟩ =
      .ok data := rfl
  obtain ⟨y, hy⟩ : ∃ y, requireSingle "pool2d"
      ⟨.f32, ⟨(pool.resultDims dims).stored .channelsFirst⟩, previous, hprevious⟩ = .ok y :=
    ⟨_, rfl⟩
  have hshape := Pooling.outputShape_eq_ok_iff.mpr ⟨hfits, rfl⟩
  have hsame : requireShape "pool2d (output)" ⟨(pool.resultDims dims).stored .channelsFirst⟩
      ⟨(pool.resultDims dims).stored .channelsFirst⟩ = .ok () := requireShape_eq_ok_iff.mpr rfl
  rw [pooling, hx, ok_bind, hy, ok_bind, hshape, ok_bind, hsame, ok_bind]
  rfl

theorem pooling_eq_error {input output : Tensor}
    (hinput : input.type = ⟨.f32, ⟨dims.stored .channelsFirst⟩⟩)
    (hfits : pool.window.Fits ⟨dims.height, dims.width⟩)
    (houtput : output.type = ⟨.f32, ⟨(pool.resultDims dims).stored .channelsFirst⟩⟩)
    (hedge : pool.PastEdge dims) : pooling pool input output = .error .windowPastEdge := by
  obtain ⟨_, _, data, hdata⟩ := input
  obtain ⟨rfl, rfl⟩ := TensorType.mk.inj hinput
  have hvalues : (Shape.coordinates ⟨(pool.resultDims dims).stored .channelsFirst⟩).mapM
      (pooledCell pool dims data) = .error .windowPastEdge := by
    refine mapM_eq_error (fun coords hcoords => ?_) ?_
    · obtain ⟨n, channel, row, column, rfl, -⟩ := exists_contains_of_mem hcoords
      by_cases hmisses : pool.Misses ⟨dims.height, dims.width⟩ row column
      · exact .inr hmisses.cell_eq
      · exact .inl ⟨_, Pooling.cell_eq_of_not_misses hmisses⟩
    · obtain ⟨row, column, hcontains, hmisses⟩ := hedge.exists_misses
      have hinside := (@ImageDims.inBounds_stored_iff _ .channelsFirst _ _ _ _).mpr hcontains
      exact ⟨_, Shape.mem_coordinates_iff.mpr hinside, hmisses.cell_eq⟩
  rw [pooling_eq hfits houtput, hvalues, error_bind]

theorem pooling_depicts {input output : Tensor} (hinput : input.Depicts .channelsFirst dims pixels)
    (hfits : pool.window.Fits ⟨dims.height, dims.width⟩)
    (houtput : output.type = ⟨.f32, ⟨(pool.resultDims dims).stored .channelsFirst⟩⟩)
    (hedge : ¬pool.PastEdge dims) :
    ∃ result, pooling pool input output = .ok result ∧
      result.Depicts .channelsFirst (pool.resultDims dims) (pool.pooled dims pixels) := by
  obtain ⟨_, _, data, hdata⟩ := input
  obtain ⟨rfl, rfl⟩ := TensorType.mk.inj hinput.type_eq
  let cell : List Nat → Float32
    | [n, channel, row, column] => pool.pooled dims pixels n channel row column
    | _ => 0.0
  have hvalues : (Shape.coordinates ⟨(pool.resultDims dims).stored .channelsFirst⟩).mapM
      (pooledCell pool dims data) = .ok ((Shape.coordinates
        ⟨(pool.resultDims dims).stored .channelsFirst⟩).map cell) := by
    refine mapM_eq_ok_map fun coords hcoords => ?_
    obtain ⟨n, channel, row, column, rfl, hcontains⟩ := exists_contains_of_mem hcoords
    have hmisses : ¬pool.Misses ⟨dims.height, dims.width⟩ row column :=
      fun hmisses => hedge (.of_misses hcontains hmisses)
    refine (Pooling.cell_eq_of_not_misses hmisses).trans (congrArg Except.ok ?_)
    refine congrArg (Pooling.reduce pool.mode) (List.map_congr_left fun (r, q) hcell => ?_)
    obtain ⟨hr, hq⟩ := Window.mem_planeCells hcell
    have hat := Tensor.getElem?_of_at?
      (hinput.pixel?_eq ⟨hcontains.count, hcontains.channel, hr, hq⟩)
    dsimp only
    rw [← offset_four]
    exact Tensor.getD_of_getElem? hat
  refine ⟨Tensor.tabulate .f32 ⟨(pool.resultDims dims).stored .channelsFirst⟩ cell, ?_,
    Tensor.tabulate_depicts fun hcontains => rfl⟩
  rw [pooling_eq hfits houtput, hvalues, ok_bind]
  exact Tensor.ofArray_eq_ok_iff.mpr ⟨_, rfl⟩

end Kernel
end NetImport
