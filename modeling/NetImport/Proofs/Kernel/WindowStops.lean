import NetImport.Proofs.Kernel.Pooled

/-!
# Counting the stops of a window

The stops on an axis are counted by the one number for which the window lies within the
padded extent at each stop and would not at one more.  If the padding is smaller than the
kernel on every side, no window lies in the padding alone: it would have to be as long as the
padding before the input, or to begin behind the input and end within the padding after it.
-/

namespace NetImport

/-! ## One axis -/

section Axis

variable {kernel stride before after extent count stop : Nat}

/-- The window lies within the padded extent at each of its stops, and would not at one
more. -/
structure CountsStops (kernel stride before after extent count : Nat) : Prop where
  one_le : 1 ≤ count
  within : ∀ stop < count, stop * stride + kernel ≤ extent + before + after
  beyond : extent + before + after < count * stride + kernel

theorem WindowStops.countsStops (hstops : WindowStops kernel stride before after extent) :
    CountsStops kernel stride before after extent
      ((extent + before + after - kernel) / stride + 1) := by
  have hkernel := hstops.kernel_le
  have hlast := Nat.div_mul_le_self (extent + before + after - kernel) stride
  have hnext : extent + before + after - kernel <
      (extent + before + after - kernel) / stride * stride + stride :=
    Nat.lt_div_mul_add hstops.stride_pos
  refine ⟨Nat.le_add_left 1 _, fun stop hstop => ?_, ?_⟩
  · have hstart : stop * stride ≤ (extent + before + after - kernel) / stride * stride :=
      Nat.mul_le_mul_right stride (Nat.le_of_lt_succ hstop)
    omega
  · rw [Nat.succ_mul]
    omega

/-- There is no other number of stops. -/
theorem CountsStops.eq_div (hcounts : CountsStops kernel stride before after extent count) :
    count = (extent + before + after - kernel) / stride + 1 := by
  obtain ⟨last, rfl⟩ := Nat.exists_eq_add_of_le' hcounts.one_le
  have hlast := hcounts.within last (Nat.lt_succ_self last)
  have hbeyond := hcounts.beyond
  have hquotient : (extent + before + after - kernel) / stride = last :=
    Nat.div_eq_of_lt_le (by omega) (by omega)
  rw [hquotient]

theorem windowStops?_eq_some_iff_countsStops :
    windowStops? kernel stride before after extent = some count ↔
      WindowStops kernel stride before after extent ∧
        CountsStops kernel stride before after extent count := by
  rw [windowStops?_eq_some_iff]
  constructor
  · rintro ⟨hstops, rfl⟩
    exact ⟨hstops, hstops.countsStops⟩
  · rintro ⟨hstops, hcounts⟩
    exact ⟨hstops, hcounts.eq_div⟩

/-- The padding after the input is too small for a window that begins behind the input. -/
theorem windowPlace_first_lt (hafter : after < kernel)
    (hwithin : stop * stride + kernel ≤ extent + before + after) :
    windowPlace stride before stop 0 < extent := by
  unfold windowPlace
  omega

theorem exists_cell_inside (hbefore : before < kernel) (hafter : after < kernel)
    (hextent : 0 < extent) (hwithin : stop * stride + kernel ≤ extent + before + after) :
    ∃ cell < kernel, ∃ place < extent, windowPlace stride before stop cell = (place : Int) := by
  by_cases hpadding : stop * stride ≤ before
  · -- the window begins in the padding, which ends before the window does
    refine ⟨before - stop * stride, by omega, 0, hextent, ?_⟩
    unfold windowPlace
    omega
  · refine ⟨0, by omega, stop * stride - before, by omega, ?_⟩
    unfold windowPlace
    omega

end Axis

/-! ## Both axes -/

namespace Window

variable {window : Window} {plane out : Plane} {row column : Nat}

/-- Each side of the padding is smaller than the kernel on its axis. -/
structure NarrowlyPadded (window : Window) : Prop where
  top : window.padding.top < window.kernel.height
  left : window.padding.left < window.kernel.width
  bottom : window.padding.bottom < window.kernel.height
  right : window.padding.right < window.kernel.width

/-- The stops of a window on both axes. -/
structure Counts (window : Window) (plane out : Plane) : Prop where
  rows : CountsStops window.kernel.height window.stride.height window.padding.top
    window.padding.bottom plane.height out.height
  columns : CountsStops window.kernel.width window.stride.width window.padding.left
    window.padding.right plane.width out.width

/-- A window begins before the bottom and the right edge of the input, and some of its rows
and columns are rows and columns of the input. -/
structure Meets (window : Window) (plane : Plane) (row column : Nat) : Prop where
  beginsAbove : window.rowAt row 0 < plane.height
  beginsLeft : window.columnAt column 0 < plane.width
  row : ∃ i < window.kernel.height, ∃ r < plane.height, window.rowAt row i = (r : Int)
  column : ∃ j < window.kernel.width, ∃ q < plane.width, window.columnAt column j = (q : Int)

theorem output?_eq_some_iff_counts :
    window.output? plane = some out ↔ window.Fits plane ∧ window.Counts plane out := by
  simp only [output?, Option.bind_eq_bind, Option.bind_eq_some_iff,
    windowStops?_eq_some_iff_countsStops, Option.pure_def, Option.some.injEq]
  constructor
  · rintro ⟨_, ⟨hrows, hheight⟩, _, ⟨hcolumns, hwidth⟩, rfl⟩
    exact ⟨⟨hrows, hcolumns⟩, hheight, hwidth⟩
  · rintro ⟨hfits, hcounts⟩
    exact ⟨_, ⟨hfits.rows, hcounts.rows⟩, _, ⟨hfits.columns, hcounts.columns⟩, rfl⟩

theorem exists_output?_iff : (∃ out, window.output? plane = some out) ↔ window.Fits plane := by
  simp [output?_eq_some_iff]

theorem fits_iff :
    window.Fits plane ↔
      window.stride.height ≠ 0 ∧ window.stride.width ≠ 0 ∧
        window.kernel.height ≠ 0 ∧ window.kernel.width ≠ 0 ∧
        window.kernel.height ≤ plane.height + window.padding.top + window.padding.bottom ∧
        window.kernel.width ≤ plane.width + window.padding.left + window.padding.right := by
  constructor
  · rintro ⟨hrows, hcolumns⟩
    exact ⟨Nat.ne_of_gt hrows.stride_pos, Nat.ne_of_gt hcolumns.stride_pos,
      Nat.ne_of_gt hrows.kernel_pos, Nat.ne_of_gt hcolumns.kernel_pos, hrows.kernel_le,
      hcolumns.kernel_le⟩
  · rintro ⟨hrowStride, hcolumnStride, hkernelHeight, hkernelWidth, hheight, hwidth⟩
    exact ⟨⟨Nat.pos_of_ne_zero hkernelHeight, Nat.pos_of_ne_zero hrowStride, hheight⟩,
      ⟨Nat.pos_of_ne_zero hkernelWidth, Nat.pos_of_ne_zero hcolumnStride, hwidth⟩⟩

theorem Counts.meets (hcounts : window.Counts plane out) (hnarrow : window.NarrowlyPadded)
    (hheight : 0 < plane.height) (hwidth : 0 < plane.width) (hrow : row < out.height)
    (hcolumn : column < out.width) : window.Meets plane row column where
  beginsAbove := windowPlace_first_lt hnarrow.bottom (hcounts.rows.within row hrow)
  beginsLeft := windowPlace_first_lt hnarrow.right (hcounts.columns.within column hcolumn)
  row := exists_cell_inside hnarrow.top hnarrow.bottom hheight (hcounts.rows.within row hrow)
  column := exists_cell_inside hnarrow.left hnarrow.right hwidth
    (hcounts.columns.within column hcolumn)

end Window

/-! ## Pooling -/

theorem Pooling.not_pastEdge_of_narrowlyPadded {pool : Pooling} {dims : ImageDims}
    (hfits : pool.window.Fits ⟨dims.height, dims.width⟩) (hnarrow : pool.window.NarrowlyPadded) :
    ¬pool.PastEdge dims := by
  intro hedge
  obtain ⟨column, hcolumn, hbeyond⟩ := hedge.column
  have hwithin := hfits.columns.countsStops.within column hcolumn
  have hbegins : pool.window.columnAt column 0 < dims.width :=
    windowPlace_first_lt hnarrow.right hwithin
  omega

/-- Pooling with a narrow padding succeeds on every image that its window fits. -/
theorem Kernel.exists_pooling_of_narrowlyPadded {pool : Pooling} {dims : ImageDims}
    {input output : Tensor} (hinput : input.type = ⟨.f32, ⟨dims.stored .channelsFirst⟩⟩)
    (hfits : pool.window.Fits ⟨dims.height, dims.width⟩) (hnarrow : pool.window.NarrowlyPadded)
    (houtput : output.type = ⟨.f32, ⟨(pool.resultDims dims).stored .channelsFirst⟩⟩) :
    ∃ result, pooling pool input output = .ok result := by
  obtain ⟨pixels, hdepicts⟩ := Tensor.exists_depicts hinput
  obtain ⟨result, hdone, -⟩ := pooling_depicts hdepicts hfits houtput
    (Pooling.not_pastEdge_of_narrowlyPadded hfits hnarrow)
  exact ⟨result, hdone⟩

end NetImport
