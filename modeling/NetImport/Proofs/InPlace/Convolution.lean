import NetImport.Proofs.InPlace.Walks
import NetImport.Proofs.Kernel.Convolved

/-!
# The convolution routine

The loops pass over images, channels, rows and columns of the result, and for each cell over
the channels of its group and the cells of the filter; a filter cell in the padding is passed
over.  The checks on the shapes keep every position inside its buffer, and no division is by
zero: a group takes at least one channel of the result, wherever there is one.
-/

namespace NetImport
namespace InPlace

/-! ## Shapes -/

/-- The stops of a window on both axes.  The strides are looked at before they divide. -/
def windowOutput (window : Window) (input : Plane) : Except Stop (Option Plane) :=
  let height := input.height + window.padding.top + window.padding.bottom
  let width := input.width + window.padding.left + window.padding.right
  if window.stride.height = 0 ∨ window.stride.width = 0 ∨ window.kernel.height = 0 ∨
      window.kernel.width = 0 then .ok none
  else if height < window.kernel.height then .ok none
  else do
    let rows ← divide (height - window.kernel.height) window.stride.height
    if width < window.kernel.width then return none
    else do
      let columns ← divide (width - window.kernel.width) window.stride.width
      return some ⟨rows + 1, columns + 1⟩

def convolutionShape (conv : Convolution) (input filter : Shape) : Except Stop Shape :=
  let mismatch := .error (.refused (.shapeMismatch "conv2d" input filter))
  if input.rank ≠ 4 ∨ filter.rank ≠ 4 ∨ conv.group = 0 then mismatch
  else do
    let channels ← entry input.dims 1
    let outputs ← entry filter.dims 0
    let depth ← entry filter.dims 1
    let left ← remainder outputs conv.group
    let kernelHeight ← entry filter.dims 2
    let kernelWidth ← entry filter.dims 3
    if channels ≠ depth * conv.group ∨ left ≠ 0 ∨ conv.window.kernel ≠ ⟨kernelHeight, kernelWidth⟩
    then mismatch
    else do
      let height ← entry input.dims 2
      let width ← entry input.dims 3
      let batch ← entry input.dims 0
      match ← windowOutput conv.window ⟨height, width⟩ with
      | some out => return ⟨[batch, outputs, out.height, out.width]⟩
      | none => mismatch

theorem windowOutput_eq_ok (window : Window) (input : Plane) :
    windowOutput window input = .ok (window.output? input) := by
  have hnone : ¬window.Fits input → window.output? input = none := by
    intro hmisfit
    rw [Option.eq_none_iff_forall_ne_some]
    intro out hout
    exact hmisfit (Window.output?_eq_some_iff.mp hout).1
  rw [windowOutput]
  by_cases hzero : window.stride.height = 0 ∨ window.stride.width = 0 ∨
      window.kernel.height = 0 ∨ window.kernel.width = 0
  · rw [if_pos hzero, hnone]
    intro hfits
    have hrows := hfits.rows.kernel_pos
    have hrowStride := hfits.rows.stride_pos
    have hcolumns := hfits.columns.kernel_pos
    have hcolumnStride := hfits.columns.stride_pos
    omega
  · have hheight : window.stride.height ≠ 0 := fun h => hzero (.inl h)
    have hwidth : window.stride.width ≠ 0 := fun h => hzero (.inr (.inl h))
    rw [if_neg hzero]
    by_cases hrows : input.height + window.padding.top + window.padding.bottom <
        window.kernel.height
    · rw [if_pos hrows, hnone fun hfits => Nat.not_le_of_lt hrows hfits.rows.kernel_le]
    · rw [if_neg hrows, divide_eq_ok hheight, ok_bind]
      by_cases hcolumns : input.width + window.padding.left + window.padding.right <
          window.kernel.width
      · rw [if_pos hcolumns, hnone fun hfits => Nat.not_le_of_lt hcolumns hfits.columns.kernel_le]
        rfl
      · have hfits : window.Fits input :=
          ⟨⟨by omega, by omega, by omega⟩, ⟨by omega, by omega, by omega⟩⟩
        rw [if_neg hcolumns, divide_eq_ok hwidth, Window.output?_eq_some_iff.mpr ⟨hfits, rfl⟩]
        rfl

theorem exists_four {dims : List Nat} (hlength : dims.length = 4) :
    ∃ a b c d, dims = [a, b, c, d] := by
  obtain ⟨dims, rfl⟩ := exists_stored .channelsFirst hlength
  exact ⟨_, _, _, _, rfl⟩

theorem convolutionShape_eq (conv : Convolution) (input filter : Shape) :
    convolutionShape conv input filter = liftM (conv.outputShape input filter) := by
  by_cases hranks : input.rank = 4 ∧ filter.rank = 4
  · obtain ⟨batch, channels, height, width, hinput⟩ := exists_four hranks.1
    obtain ⟨outputs, depth, kernelHeight, kernelWidth, hfilter⟩ := exists_four hranks.2
    simp only [convolutionShape, hinput, hfilter, entry_first, entry_second, entry_third,
      entry_fourth, ok_bind, windowOutput_eq_ok, Convolution.outputShape]
    by_cases hgroup : conv.group = 0
    · rw [if_pos (.inr (.inr hgroup)), if_pos hgroup]
      rfl
    · rw [if_neg (by simp [hranks, hgroup]), if_neg hgroup, remainder_eq_ok hgroup, ok_bind]
      by_cases hextents : channels ≠ depth * conv.group ∨ outputs % conv.group ≠ 0 ∨
          conv.window.kernel ≠ ⟨kernelHeight, kernelWidth⟩
      · rw [if_pos hextents, if_pos hextents]
        rfl
      · rw [if_neg hextents, if_neg hextents]
        cases conv.window.output? ⟨height, width⟩ <;> rfl
  · rw [convolutionShape, if_pos (by omega), Convolution.outputShape]
    split
    · next hinput hfilter =>
        refine absurd ?_ hranks
        rw [Shape.rank, Shape.rank, hinput, hfilter]
        exact ⟨rfl, rfl⟩
    · rfl

/-! ## Sums -/

section Sums

variable (conv : Convolution) (extents : Convolution.Extents) (x w : Array Float32)

/-- Adds the products of one row of a filter channel. -/
def addTapRow (n inputChannel output channel column i : Nat) (inputRow : Int)
    (sum : Float32) : Except Stop Float32 :=
  (List.range extents.kernel.width).foldlM (fun sum j => do
    let inputColumn := conv.window.columnAt column j
    if covers extents.input.width inputColumn then do
      let a ← load x (extents.inputOffset n inputChannel inputRow.toNat inputColumn.toNat)
      let b ← load w (extents.filterOffset output channel i j)
      return sum + a * b
    else return sum) sum

/-- Adds the products of all channels of a group to a number. -/
def addTaps (n group output row column : Nat) (start : Float32) : Except Stop Float32 :=
  (List.range extents.depth).foldlM (fun sum channel =>
    (List.range extents.kernel.height).foldlM (fun sum i =>
      let inputRow := conv.window.rowAt row i
      if covers extents.input.height inputRow then
        addTapRow conv extents x w n (group * extents.depth + channel) output channel column i
          inputRow sum
      else return sum) sum) start

variable {conv extents x w} {batch outputs : Nat}

theorem inputOffset_lt (extents : Convolution.Extents) {n channel row column : Nat}
    (hn : n < batch) (hchannel : channel < extents.channels) (hrow : row < extents.input.height)
    (hcolumn : column < extents.input.width) :
    extents.inputOffset n channel row column <
      product [batch, extents.channels, extents.input.height, extents.input.width] := by
  have hinside : inBounds [batch, extents.channels, extents.input.height, extents.input.width]
      [n, channel, row, column] := by
    simp [inBounds, hn, hchannel, hrow, hcolumn]
  have hoffset := offset_lt hinside
  rw [offset_four] at hoffset
  exact hoffset

theorem filterOffset_lt (extents : Convolution.Extents) {output channel i j : Nat}
    (houtput : output < outputs) (hchannel : channel < extents.depth)
    (hi : i < extents.kernel.height) (hj : j < extents.kernel.width) :
    extents.filterOffset output channel i j <
      product [outputs, extents.depth, extents.kernel.height, extents.kernel.width] := by
  have hinside : inBounds [outputs, extents.depth, extents.kernel.height, extents.kernel.width]
      [output, channel, i, j] := by
    simp [inBounds, houtput, hchannel, hi, hj]
  have hoffset := offset_lt hinside
  rw [offset_four] at hoffset
  exact hoffset

theorem addTaps_eq_ok {n output : Nat} (row column : Nat) (start : Float32) (hn : n < batch)
    (houtput : output < outputs)
    (hgroup : ∀ channel < extents.depth,
      output / (outputs / conv.group) * extents.depth + channel < extents.channels)
    (hx : x.size = product [batch, extents.channels, extents.input.height, extents.input.width])
    (hw : w.size =
      product [outputs, extents.depth, extents.kernel.height, extents.kernel.width]) :
    addTaps conv extents x w n (output / (outputs / conv.group)) output row column start =
      .ok (Convolution.cell x w start (conv.taps extents outputs n output row column)) := by
  have hrows : axisTaps extents.kernel.height (row * conv.window.stride.height)
      conv.window.padding.top extents.input.height =
      ((List.range extents.kernel.height).filter fun i =>
        covers extents.input.height (conv.window.rowAt row i)).map fun i =>
          (i, (conv.window.rowAt row i).toNat) := axisTaps_eq_map ..
  have hcolumns : axisTaps extents.kernel.width (column * conv.window.stride.width)
      conv.window.padding.left extents.input.width =
      ((List.range extents.kernel.width).filter fun j =>
        covers extents.input.width (conv.window.columnAt column j)).map fun j =>
          (j, (conv.window.columnAt column j).toNat) := axisTaps_eq_map ..
  simp only [Convolution.cell, Convolution.taps, hrows, hcolumns, List.foldl_flatMap,
    List.flatMap_map, List.foldl_map, List.foldl_filter]
  apply foldlM_eq_ok_foldl
  intro channel hchannel sum
  apply foldlM_eq_ok_foldl
  intro i hi sum
  have hchannel := List.mem_range.mp hchannel
  have hi := List.mem_range.mp hi
  by_cases hrow : covers extents.input.height (conv.window.rowAt row i)
  · rw [if_pos hrow, if_pos hrow]
    apply foldlM_eq_ok_foldl
    intro j hj sum
    have hj := List.mem_range.mp hj
    by_cases hcolumn : covers extents.input.width (conv.window.columnAt column j)
    · have hinput := inputOffset_lt extents hn (hgroup channel hchannel)
        (toNat_lt_of_covers hrow) (toNat_lt_of_covers hcolumn)
      have hfilter := filterOffset_lt extents houtput hchannel hi hj
      rw [if_pos hcolumn, if_pos hcolumn, load_eq_ok_getD 0.0 (hx ▸ hinput), ok_bind,
        load_eq_ok_getD 0.0 (hw ▸ hfilter)]
      rfl
    · rw [if_neg hcolumn, if_neg hcolumn]
      rfl
  · rw [if_neg hrow, if_neg hrow]
    rfl

end Sums

/-! ## The loops over the result -/

def biasElements? (bias? : Option Tensor) (outputs : Nat) :
    Except Stop (Option (Array Float32)) :=
  match bias? with
  | none => .ok none
  | some bias => do
      requireSingleDType "conv2d" bias.dtype
      Kernel.requireShape "conv2d (bias)" (Shape.vector outputs) bias.shape
      let elements ← singles bias
      return some elements

def biasAt (elements? : Option (Array Float32)) (output : Nat) : Except Stop Float32 :=
  match elements? with
  | none => .ok 0.0
  | some elements => load elements output

def convolve (conv : Convolution) (extents : Convolution.Extents)
    (batch outputs perGroup rows columns : Nat) (x w : Array Float32)
    (bias? : Option (Array Float32)) : Routine (Array Float32) Unit :=
  (List.range batch).forM fun n =>
    (List.range outputs).forM fun o => do
      let group ← divide o perGroup
      let start ← biasAt bias? o
      (List.range rows).forM fun row =>
        (List.range columns).forM fun column => do
          let sum ← addTaps conv extents x w n group o row column start
          store (((n * outputs + o) * rows + row) * columns + column) sum

def convolution (conv : Convolution) (input filter : Tensor) (bias? : Option Tensor) :
    Routine Storage Unit := do
  let output ← get
  requireSingleDType "conv2d" input.dtype
  requireSingleDType "conv2d" filter.dtype
  requireSingleDType "conv2d" output.dtype
  let expected ← convolutionShape conv input.shape filter.shape
  Kernel.requireShape "conv2d (output)" expected output.shape
  let batch ← entry input.shape.dims 0
  let channels ← entry input.shape.dims 1
  let height ← entry input.shape.dims 2
  let width ← entry input.shape.dims 3
  let outputs ← entry filter.shape.dims 0
  let depth ← entry filter.shape.dims 1
  let kernelHeight ← entry filter.shape.dims 2
  let kernelWidth ← entry filter.shape.dims 3
  let rows ← entry expected.dims 2
  let columns ← entry expected.dims 3
  let perGroup ← divide outputs conv.group
  let elements? ← biasElements? bias? outputs
  let x ← singles input
  let w ← singles filter
  let extents : Convolution.Extents :=
    ⟨channels, ⟨height, width⟩, depth, ⟨kernelHeight, kernelWidth⟩⟩
  onSingles (convolve conv extents batch outputs perGroup rows columns x w elements?)

theorem biasElements?_cases (bias? : Option Tensor) (outputs : Nat) :
    (∃ reason, Kernel.requireBias bias? outputs = .error reason ∧
      biasElements? bias? outputs = .error (.refused reason)) ∨
    ∃ elements elements?, Kernel.requireBias bias? outputs = .ok elements ∧
      biasElements? bias? outputs = .ok elements? ∧
      ∀ o < outputs, biasAt elements? o = .ok (elements.getD o 0.0) := by
  cases bias? with
  | none =>
      refine .inr ⟨Array.replicate outputs 0.0, none, rfl, rfl, fun o ho => ?_⟩
      simp [biasAt, ho]
  | some bias =>
      rw [Kernel.requireBias, requireSingle_bind, biasElements?]
      cases hdtype : requireSingleDType "conv2d" bias.dtype with
      | error reason => exact .inl ⟨reason, rfl, rfl⟩
      | ok u =>
          obtain ⟨elements, helements, hsingle⟩ := exists_elements_of_requireSingleDType hdtype
          rw [hsingle, ok_bind, ok_bind]
          by_cases hshape : Shape.vector outputs = bias.shape
          · have hsize : elements.size = outputs := by
              rw [Tensor.size_of_elements? helements, ← hshape]
              simp [Shape.vector, Shape.count]
            refine .inr ⟨elements, some elements, ?_, ?_, fun o ho => ?_⟩
            · rw [Kernel.requireShape, if_pos hshape]
              rfl
            · rw [Kernel.requireShape, if_pos hshape, singles_eq_ok helements]
              rfl
            · exact load_eq_ok_getD 0.0 (hsize ▸ ho)
          · refine .inl ⟨.shapeMismatch "conv2d (bias)" (Shape.vector outputs) bias.shape, ?_, ?_⟩
            · rw [Kernel.requireShape, if_neg hshape, error_bind]
            · rw [Kernel.requireShape, if_neg hshape]
              rfl

section Loops

variable {conv : Convolution} {extents : Convolution.Extents}
  {batch outputs perGroup rows columns : Nat} {x w : Array Float32}
  {bias? : Option (Array Float32)} {element : Nat → Nat → Nat → Nat → Float32}
  (hcell : ∀ n < batch, ∀ o < outputs, ∃ group start,
    divide o perGroup = .ok group ∧ biasAt bias? o = .ok start ∧
      ∀ row column,
        addTaps conv extents x w n group o row column start = .ok (element n o row column))
include hcell

theorem convolve_run {buffer : Array Float32}
    (hsize : buffer.size = Shape.count ⟨[batch, outputs, rows, columns]⟩) :
    convolve conv extents batch outputs perGroup rows columns x w bias? buffer =
      .ok () ((Shape.coordinates ⟨[batch, outputs, rows, columns]⟩).map fun
        | [n, o, row, column] => element n o row column
        | _ => 0.0).toArray := by
  let f : List Nat → Float32
    | [n, o, row, column] => element n o row column
    | _ => 0.0
  have hloops : Fills (convolve conv extents batch outputs perGroup rows columns x w bias?) 0
      (product [batch, outputs, rows, columns])
      ((Shape.coordinates ⟨[batch, outputs, rows, columns]⟩).mapM fun coords =>
        .ok (f coords)) := by
    apply Fills.forM_axis
    intro n hn
    apply Fills.forM_axis
    intro o ho
    obtain ⟨group, start, hgroup, hstart, hsum⟩ := hcell n hn o ho
    apply Fills.read_ok hgroup
    apply Fills.read_ok hstart
    apply Fills.forM_axis
    intro row hrow
    apply Fills.forM_axis
    intro column hcolumn
    apply Fills.store_cell
    · simp [Nat.add_mul, Nat.mul_assoc]
    · exact (hsum row column).symm
  rw [mapM_eq_ok_map fun _ _ => rfl] at hloops
  exact hloops.run hsize

end Loops

/-- Where input and filter fit, each cell of the result has its group, its start and its sum. -/
theorem cells_of_fits {conv : Convolution} {xDims wDims : ImageDims}
    (hfits : conv.Fits xDims wDims) {x w starts : Array Float32}
    {elements? : Option (Array Float32)}
    (hx : x.size = product (xDims.stored .channelsFirst))
    (hw : w.size = product (wDims.stored .channelsFirst))
    (hstarts : ∀ o < wDims.count, biasAt elements? o = .ok (starts.getD o 0.0)) :
    let extents : Convolution.Extents := ⟨xDims.channels, ⟨xDims.height, xDims.width⟩,
      wDims.channels, ⟨wDims.height, wDims.width⟩⟩
    ∀ n < xDims.count, ∀ o < wDims.count, ∃ group start,
      divide o (wDims.count / conv.group) = .ok group ∧ biasAt elements? o = .ok start ∧
        ∀ row column, addTaps conv extents x w n group o row column start =
          .ok (Convolution.cell x w (starts.getD o 0.0)
            (conv.taps extents wDims.count n o row column)) := by
  intro extents n hn o ho
  have hgroups : wDims.count / conv.group ≠ 0 := by
    intro hzero
    have hcount : wDims.count / conv.group * conv.group = wDims.count :=
      Nat.div_mul_cancel (Nat.dvd_of_mod_eq_zero hfits.count_mod)
    rw [hzero, Nat.zero_mul] at hcount
    omega
  have hshare : xDims.channels / conv.group = wDims.channels := by
    have hchannels : xDims.channels = wDims.channels * conv.group := hfits.channels_eq
    rw [hchannels, Nat.mul_div_cancel _ hfits.group_pos]
  refine ⟨_, _, divide_eq_ok hgroups, hstarts o ho, fun row column => ?_⟩
  apply addTaps_eq_ok row column _ hn ho _ hx hw
  intro channel hchannel
  have hinside : o / (wDims.count / conv.group) * (xDims.channels / conv.group) + channel <
      xDims.channels := hfits.channelOf_lt ho hchannel
  rwa [hshare] at hinside

theorem convolution_realizes (conv : Convolution) (input filter : Tensor)
    (bias? : Option Tensor) :
    Realizes (convolution conv input filter bias?)
      (Kernel.convolution conv input filter bias?) := by
  intro output
  rw [convolution, get_bind_apply, convolutionShape_eq]
  apply requireSingle_step
  intro x hx
  apply requireSingle_step
  intro w hw
  apply requireSingle_step
  intro y hy
  apply check_step
  intro expected hexpected
  apply shape_step
  intro (hshape : expected = output.shape)
  obtain ⟨⟨batch, channels, height, width, hinput⟩, outputs, depth, kernelHeight, kernelWidth,
    hfilter⟩ := Convolution.dims_of_outputShape hexpected
  let xDims : ImageDims := ⟨batch, channels, height, width⟩
  let wDims : ImageDims := ⟨outputs, depth, kernelHeight, kernelWidth⟩
  have hinputShape : input.shape = ⟨xDims.stored .channelsFirst⟩ := congrArg Shape.mk hinput
  have hfilterShape : filter.shape = ⟨wDims.stored .channelsFirst⟩ := congrArg Shape.mk hfilter
  rw [hinputShape, hfilterShape] at hexpected
  obtain ⟨hfits, hresult⟩ := Convolution.outputShape_eq_ok_iff.mp hexpected
  let out := conv.resultDims xDims wDims
  have hdims : expected.dims = [batch, outputs, out.height, out.width] := by
    rw [hresult]
    rfl
  rw [hinput, hfilter, hdims]
  simp only [entry_first, entry_second, entry_third, entry_fourth, read_ok_bind_apply,
    divide_eq_ok (Nat.ne_of_gt hfits.group_pos)]
  rcases biasElements?_cases bias? outputs with ⟨reason, hkernel, hroutine⟩ |
    ⟨elements, elements?, hkernel, hroutine, hstarts⟩
  · rw [hkernel, hroutine]
    rfl
  · rw [hkernel, hroutine, read_ok_bind_apply, singles_eq_ok hx, read_ok_bind_apply,
      singles_eq_ok hw, read_ok_bind_apply, ok_bind]
    have hxsize : x.size = product [batch, channels, height, width] := by
      rw [Tensor.size_of_elements? hx, Shape.count, hinput]
    have hwsize : w.size = product [outputs, depth, kernelHeight, kernelWidth] := by
      rw [Tensor.size_of_elements? hw, Shape.count, hfilter]
    have houtput : output.shape = ⟨[batch, outputs, out.height, out.width]⟩ := by
      rw [← hshape, ← hdims]
    change _ = ending output (.ok (Tensor.tabulate .f32 output.shape _))
    rw [← Tensor.ofArray_eq_tabulate]
    apply onElements_ending (Tensor.exists_elements?_iff.mp ⟨y, hy⟩) (by simp)
    intro buffer hbuffer
    rw [houtput] at hbuffer ⊢
    apply convolve_run
    · exact cells_of_fits hfits hxsize hwsize hstarts
    · simpa using hbuffer

end InPlace
end NetImport
