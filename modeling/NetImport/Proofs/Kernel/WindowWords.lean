import NetImport.Kernel.Words
import NetImport.Proofs.InPlace.Convolution
import NetImport.Proofs.Kernel.WindowStops
import NetImport.Proofs.Tensor.Words

/-!
# Windows in words

In words a window stops on an input as it would without padding on what is left of the padded
extents.  Where the padded extents are words, the stops are the exact ones; where twice the
padded extents are, so are the places of the window, and convolution and pooling come to the
same result in words as without.
-/

namespace NetImport

variable {bits : Nat}

/-! ## Stops -/

section Axis

variable {kernel stride before after extent start padding : Nat}

/-- The padded extent is all that a cut can change: there are no more stops than places. -/
theorem windowStopsInWords?_eq_wrapped (bits kernel stride before after extent : Nat) :
    windowStopsInWords? bits kernel stride before after extent =
      windowStops? kernel stride 0 0 (Word.hold bits (extent + before + after)) := by
  have hpadded : Word.add bits (Word.add bits extent before) after =
      Word.hold bits (extent + before + after) := Word.add_hold_left ..
  have hword := Word.hold_lt bits (extent + before + after)
  simp only [windowStopsInWords?, windowStops?, hpadded, Nat.add_zero]
  by_cases hzero : kernel = 0 ∨ stride = 0
  · rw [if_pos hzero, if_pos hzero]
  · by_cases hshort : Word.hold bits (extent + before + after) < kernel
    · rw [if_neg hzero, if_neg hzero, if_pos hshort, if_pos hshort]
    · have hquotient := Nat.div_le_self (Word.hold bits (extent + before + after) - kernel) stride
      rw [if_neg hzero, if_neg hzero, if_neg hshort, if_neg hshort, Word.add_eq (by omega)]

theorem windowStopsInWords?_eq (hpadded : extent + before + after < twoPow bits) :
    windowStopsInWords? bits kernel stride before after extent =
      windowStops? kernel stride before after extent := by
  rw [windowStopsInWords?_eq_wrapped, Word.hold_eq hpadded]
  rfl

/-- A window that lies within the padded extent covers the places that it covers without a
cut. -/
theorem Pooling.spanInWords_eq (hwithin : start + kernel ≤ extent + padding + after)
    (hwords : 2 * (extent + padding + after) < twoPow bits) :
    Pooling.spanInWords bits kernel start padding extent =
      Pooling.span kernel start padding extent := by
  have hstart : Word.signed bits start = start := Word.signed_eq (by omega) (by omega)
  have hpadding : Word.signed bits padding = padding := Word.signed_eq (by omega) (by omega)
  have hkernel : Word.signed bits kernel = kernel := Word.signed_eq (by omega) (by omega)
  have hfirst : Word.signed bits ((start : Int) - padding) = start - padding :=
    Word.signed_eq (by omega) (by omega)
  have hlast : Word.signed bits ((start : Int) - padding + kernel) = start - padding + kernel :=
    Word.signed_eq (by omega) (by omega)
  simp only [spanInWords, span, hstart, hpadding, hkernel, hfirst, hlast, Prod.mk.injEq]
  omega

theorem axisTapsInWords_eq (hwithin : start + kernel ≤ extent + padding + after)
    (hwords : 2 * (extent + padding + after) < twoPow bits) :
    axisTapsInWords bits kernel start padding extent = axisTaps kernel start padding extent := by
  have hpadding : Word.signed bits padding = padding := Word.signed_eq (by omega) (by omega)
  refine List.filterMap_congr fun i hi => ?_
  have hcell : i < kernel := List.mem_range.mp hi
  have hplace : Word.signed bits ((start + i : Nat) : Int) = (start + i : Nat) :=
    Word.signed_eq (by omega) (by omega)
  have hbehind : Word.signed bits (((start + i : Nat) : Int) - padding) =
      ((start + i : Nat) : Int) - padding :=
    Word.signed_eq (by omega) (by omega)
  rw [Word.add_eq (by omega)]
  simp only [hplace, hpadding, hbehind]
  by_cases hinside : padding ≤ start + i ∧ start + i - padding < extent
  · rw [if_pos hinside, if_pos (by omega)]
    congr 2
    omega
  · rw [if_neg hinside, if_neg (by omega)]

end Axis

namespace Window

variable {window : Window} {plane : Plane}

/-- What is left of the padded extents. -/
def paddedInWords (bits : Nat) (window : Window) (plane : Plane) : Plane where
  height := Word.hold bits (plane.height + window.padding.top + window.padding.bottom)
  width := Word.hold bits (plane.width + window.padding.left + window.padding.right)

def withoutPadding (window : Window) : Window := { window with padding := ⟨0, 0, 0, 0⟩ }

/-- In words the stops are counted on what is left of the padded extents. -/
theorem outputInWords?_eq_wrapped (bits : Nat) (window : Window) (plane : Plane) :
    window.outputInWords? bits plane =
      window.withoutPadding.output? (window.paddedInWords bits plane) := by
  simp only [outputInWords?, windowStopsInWords?_eq_wrapped]
  rfl

theorem outputInWords?_eq
    (hheight : plane.height + window.padding.top + window.padding.bottom < twoPow bits)
    (hwidth : plane.width + window.padding.left + window.padding.right < twoPow bits) :
    window.outputInWords? bits plane = window.output? plane := by
  simp only [outputInWords?, windowStopsInWords?_eq hheight, windowStopsInWords?_eq hwidth]
  rfl

theorem FitsWords.outputInWords?_eq (hwords : window.FitsWords bits plane) :
    window.outputInWords? bits plane = window.output? plane := by
  obtain ⟨hheight, hwidth⟩ := hwords
  exact Window.outputInWords?_eq (by omega) (by omega)

end Window

/-! ## Pooling -/

namespace Pooling

variable {pool : Pooling}

theorem outputShapeInWords_eq {input : Shape} (hwords : pool.FitsWords bits input) :
    pool.outputShapeInWords bits input = pool.outputShape input := by
  obtain ⟨_ | ⟨batch, _ | ⟨channels, _ | ⟨height, _ | ⟨width, _ | ⟨extra, rest⟩⟩⟩⟩⟩⟩ := input
  case cons.cons.cons.cons.nil =>
    have hout : pool.window.outputInWords? bits ⟨height, width⟩ =
        pool.window.output? ⟨height, width⟩ := Window.FitsWords.outputInWords?_eq hwords
    simp only [outputShapeInWords, hout]
    cases hplane : pool.window.output? ⟨height, width⟩ <;> simp only [outputShape, hplane]
  all_goals rfl

theorem cellInWords_eq {cells : Nat → Nat → Float32} {plane : Plane} {row column : Nat}
    (hwords : pool.window.FitsWords bits plane)
    (hrow : row * pool.window.stride.height + pool.window.kernel.height ≤
      plane.height + pool.window.padding.top + pool.window.padding.bottom)
    (hcolumn : column * pool.window.stride.width + pool.window.kernel.width ≤
      plane.width + pool.window.padding.left + pool.window.padding.right) :
    pool.cellInWords bits cells plane row column = pool.cell cells plane row column := by
  obtain ⟨hheight, hwidth⟩ := hwords
  rw [cellInWords, cell, Word.mul_eq (by omega), Word.mul_eq (by omega),
    spanInWords_eq hrow hheight, spanInWords_eq hcolumn hwidth]

end Pooling

namespace Kernel

/-- Pooling in words is pooling, where twice the padded extents are words. -/
theorem poolingInWords_eq {pool : Pooling} {input : Tensor} (output : Tensor)
    (hwords : pool.FitsWords bits input.shape) :
    poolingInWords bits pool input output = pooling pool input output := by
  rw [poolingInWords, pooling, Pooling.outputShapeInWords_eq hwords]
  refine bind_congr_ok fun x hx => bind_congr_ok fun y hy => bind_congr_ok fun expected hexpected =>
    bind_congr_ok fun _ hshape => ?_
  obtain ⟨batch, channels, height, width, -, -, hinput, -⟩ := Pooling.dims_of_outputShape hexpected
  let dims : ImageDims := ⟨batch, channels, height, width⟩
  rw [show input.shape = ⟨dims.stored .channelsFirst⟩ from congrArg Shape.mk hinput] at hexpected
  obtain ⟨hfits, rfl⟩ := Pooling.outputShape_eq_ok_iff.mp hexpected
  rw [← requireShape_eq_ok_iff.mp hshape]
  simp only [Pooling.FitsWords, hinput] at hwords ⊢
  -- the kernel stays within the padded extents at every stop, so no place of it is cut
  refine congrArg (· >>= _) (mapM_congr fun coords hcoords => ?_)
  obtain ⟨n, channel, row, column, rfl, hcontains⟩ := exists_contains_of_mem hcoords
  exact Pooling.cellInWords_eq hwords
    (hfits.rows.countsStops.within row hcontains.row)
    (hfits.columns.countsStops.within column hcontains.column)

end Kernel

/-! ## Convolution -/

namespace Convolution

variable {conv : Convolution} {input filter : Shape}

theorem outputShapeInWords_eq (hwords : conv.FitsWords bits input filter) :
    conv.outputShapeInWords bits input filter = conv.outputShape input filter := by
  obtain ⟨hwindow, hchannels⟩ := hwords
  obtain ⟨_ | ⟨batch, _ | ⟨channels, _ | ⟨height, _ | ⟨width, _ | ⟨extra, rest⟩⟩⟩⟩⟩⟩ := input
  case cons.cons.cons.cons.nil =>
    obtain ⟨_ | ⟨outputs, _ | ⟨depth, _ | ⟨kernelHeight, _ | ⟨kernelWidth, _ | ⟨more, others⟩⟩⟩⟩⟩⟩ :=
      filter
    case cons.cons.cons.cons.nil =>
      have hout : conv.window.outputInWords? bits ⟨height, width⟩ =
          conv.window.output? ⟨height, width⟩ := hwindow.outputInWords?_eq
      have hdepth : Word.mul bits depth conv.group = depth * conv.group := Word.mul_eq hchannels
      simp only [outputShapeInWords, hout, hdepth]
      cases hplane : conv.window.output? ⟨height, width⟩ <;> simp only [outputShape, hplane]
    all_goals rfl
  all_goals rfl

theorem tapsInWords_eq (extents : Extents) (outputs n output : Nat) {row column : Nat}
    (hwords : conv.window.FitsWords bits extents.input)
    (hrow : row * conv.window.stride.height + extents.kernel.height ≤
      extents.input.height + conv.window.padding.top + conv.window.padding.bottom)
    (hcolumn : column * conv.window.stride.width + extents.kernel.width ≤
      extents.input.width + conv.window.padding.left + conv.window.padding.right) :
    conv.tapsInWords bits extents outputs n output row column =
      conv.taps extents outputs n output row column := by
  obtain ⟨hheight, hwidth⟩ := hwords
  rw [tapsInWords, taps, Word.mul_eq (by omega), Word.mul_eq (by omega),
    axisTapsInWords_eq hrow hheight, axisTapsInWords_eq hcolumn hwidth]

/-- Taps inside both tensors are added up as without a check. -/
theorem checkedCell_eq {x w : Array Float32} (bias : Float32) {taps : List (Nat × Nat)}
    (hinside : ∀ tap ∈ taps, tap.1 < x.size ∧ tap.2 < w.size) :
    checkedCell x w bias taps = .ok (cell x w bias taps) := by
  refine foldlM_eq_ok_foldl (fun (place, weight) htap sum => ?_) bias
  obtain ⟨hplace, hweight⟩ := hinside _ htap
  simp only [InPlace.orFault, Array.getElem?_eq_getElem hplace,
    Array.getElem?_eq_getElem hweight, Array.getD_eq_getD_getElem?, Option.getD_some, ok_bind]
  rfl

/-- Where input and filter fit, every tap of a cell of the result lies inside both. -/
theorem Fits.taps_inside {xDims wDims : ImageDims} (hfits : conv.Fits xDims wDims)
    {n output : Nat} (hn : n < xDims.count) (houtput : output < wDims.count) (row column : Nat) :
    ∀ tap ∈ conv.taps ⟨xDims.channels, ⟨xDims.height, xDims.width⟩, wDims.channels,
        ⟨wDims.height, wDims.width⟩⟩ wDims.count n output row column,
      tap.1 < product (xDims.stored .channelsFirst) ∧
        tap.2 < product (wDims.stored .channelsFirst) := by
  have hshare : xDims.channels / conv.group = wDims.channels := by
    rw [hfits.channels_eq, Nat.mul_div_cancel _ hfits.group_pos]
  intro tap htap
  rw [taps_eq_map hfits.kernel_eq] at htap
  obtain ⟨⟨channel, i, j⟩, hcell, rfl⟩ := List.mem_map.mp htap
  obtain ⟨hchannel, hi, hj, hrow, hcolumn⟩ := Window.mem_filterCells hcell
  rw [hfits.kernel_eq] at hi hj
  have hinside : conv.channelOf xDims wDims output channel < xDims.channels :=
    hfits.channelOf_lt houtput hchannel
  rw [channelOf, hshare] at hinside
  exact ⟨InPlace.inputOffset_lt _ hn hinside hrow hcolumn,
    InPlace.filterOffset_lt _ houtput hchannel hi hj⟩

end Convolution

namespace Kernel

open InPlace (liftM_bind_eq)

/-- Convolution in words is convolution, where twice the padded extents and the channels of
the groups are words. -/
theorem convolutionInWords_eq {conv : Convolution} {input filter : Tensor}
    (bias? : Option Tensor) (output : Tensor)
    (hwords : conv.FitsWords bits input.shape filter.shape) :
    convolutionInWords bits conv input filter bias? output =
      liftM (convolution conv input filter bias? output) := by
  rw [convolutionInWords, convolution, Convolution.outputShapeInWords_eq hwords]
  refine liftM_bind_eq fun x hx => liftM_bind_eq fun w hw => liftM_bind_eq fun y hy =>
    liftM_bind_eq fun expected hexpected => liftM_bind_eq fun _ hshape => ?_
  obtain ⟨⟨batch, channels, height, width, hinput⟩, outputs, depth, kernelHeight, kernelWidth,
    hfilter⟩ := Convolution.dims_of_outputShape hexpected
  let xDims : ImageDims := ⟨batch, channels, height, width⟩
  let wDims : ImageDims := ⟨outputs, depth, kernelHeight, kernelWidth⟩
  rw [show input.shape = ⟨xDims.stored .channelsFirst⟩ from congrArg Shape.mk hinput,
    show filter.shape = ⟨wDims.stored .channelsFirst⟩ from congrArg Shape.mk hfilter] at hexpected
  obtain ⟨hfits, rfl⟩ := Convolution.outputShape_eq_ok_iff.mp hexpected
  rw [← requireShape_eq_ok_iff.mp hshape]
  obtain ⟨hwindow, -⟩ := hwords
  simp only [hinput, hfilter] at hwindow ⊢
  refine liftM_bind_eq fun bias hbias => ?_
  refine Tensor.tabulate_of_mapM fun coords hcoords => ?_
  obtain ⟨n, o, row, column, rfl, hcontains⟩ := exists_contains_of_mem hcoords
  have hrow := hfits.window.rows.countsStops.within row hcontains.row
  have hcolumn := hfits.window.columns.countsStops.within column hcontains.column
  rw [hfits.kernel_eq] at hrow hcolumn
  have htaps := Convolution.tapsInWords_eq ⟨channels, ⟨height, width⟩, depth,
    ⟨kernelHeight, kernelWidth⟩⟩ outputs n o hwindow hrow hcolumn
  simp only [htaps]
  apply Convolution.checkedCell_eq
  intro tap htap
  have hinside := hfits.taps_inside hcontains.count hcontains.channel row column tap htap
  rw [Kernel.size_of_requireSingle hx, Kernel.size_of_requireSingle hw, Shape.count, Shape.count,
    hinput, hfilter]
  exact hinside

end Kernel
end NetImport
