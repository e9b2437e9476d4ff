import NetImport.Proofs.Kernel.Images
import NetImport.Proofs.Kernel.Reduction
import NetImport.Proofs.Kernel.Windows
import NetImport.Proofs.Tensor.Stacks

/-!
# Convolved images

A convolution is accepted when its groups divide the channels and its window fits.  Every
pixel of the result then is the sum, from the bias of its channel on, of the products of the
filter cells that lie inside the image.
-/

namespace NetImport
namespace Convolution

/-- The extents of images and filters that belong together. -/
structure Fits (conv : Convolution) (input filter : ImageDims) : Prop where
  group_pos : 0 < conv.group
  channels_eq : input.channels = filter.channels * conv.group
  count_mod : filter.count % conv.group = 0
  kernel_eq : conv.window.kernel = ⟨filter.height, filter.width⟩
  window : conv.window.Fits ⟨input.height, input.width⟩

def resultDims (conv : Convolution) (input filter : ImageDims) : ImageDims where
  count := input.count
  channels := filter.count
  height := (conv.window.result ⟨input.height, input.width⟩).height
  width := (conv.window.result ⟨input.height, input.width⟩).width

/-- The channel of an image that a channel of a filter goes with: the channels of the result
share the groups of channels of the image evenly. -/
def channelOf (conv : Convolution) (input filter : ImageDims) (output channel : Nat) : Nat :=
  output / (filter.count / conv.group) * (input.channels / conv.group) + channel

/-- The pixels of the result. -/
def convolved (conv : Convolution) (input filter : ImageDims) (x w : Pixels)
    (start : Nat → Float32) : Pixels := fun n output row column =>
  (conv.window.filterCells filter.channels ⟨input.height, input.width⟩ row column).foldl
    (fun sum (channel, i, j) => sum +
      x n (conv.channelOf input filter output channel) (conv.window.rowAt row i).toNat
        (conv.window.columnAt column j).toNat * w output channel i j)
    (start output)

variable {conv : Convolution} {input filter : ImageDims}

theorem outputShape_eq_ok_iff {shape : Shape} :
    conv.outputShape ⟨input.stored .channelsFirst⟩ ⟨filter.stored .channelsFirst⟩ = .ok shape ↔
      conv.Fits input filter ∧ shape = ⟨(conv.resultDims input filter).stored .channelsFirst⟩ := by
  simp only [outputShape, ImageDims.stored, Lowering.StorageOrder.arrange]
  by_cases hgroup : conv.group = 0
  · rw [if_pos hgroup]
    exact iff_of_false (by simp) fun hfits => Nat.ne_of_gt hfits.1.group_pos hgroup
  · rw [if_neg hgroup]
    by_cases hextents : input.channels ≠ filter.channels * conv.group ∨
        filter.count % conv.group ≠ 0 ∨ conv.window.kernel ≠ ⟨filter.height, filter.width⟩
    · rw [if_pos hextents]
      refine iff_of_false (by simp) fun hfits => ?_
      rcases hextents with hchannels | hcount | hkernel
      · exact hchannels hfits.1.channels_eq
      · exact hcount hfits.1.count_mod
      · exact hkernel hfits.1.kernel_eq
    · rw [if_neg hextents]
      push Not at hextents
      obtain ⟨hchannels, hcount, hkernel⟩ := hextents
      constructor
      · intro hshape
        split at hshape
        · next out hout =>
            obtain ⟨hwindow, rfl⟩ := Window.output?_eq_some_iff.mp hout
            obtain rfl := Except.ok.inj hshape
            exact ⟨⟨Nat.pos_of_ne_zero hgroup, hchannels, hcount, hkernel, hwindow⟩, rfl⟩
        · cases hshape
      · rintro ⟨hfits, rfl⟩
        rw [Window.output?_eq_some_iff.mpr ⟨hfits.window, rfl⟩]
        rfl

theorem Fits.channelOf_lt (hfits : conv.Fits input filter) {output channel : Nat}
    (houtput : output < filter.count) (hchannel : channel < filter.channels) :
    conv.channelOf input filter output channel < input.channels := by
  have hshare : input.channels / conv.group = filter.channels := by
    rw [hfits.channels_eq, Nat.mul_div_cancel _ hfits.group_pos]
  have hcount : filter.count / conv.group * conv.group = filter.count :=
    Nat.div_mul_cancel (Nat.dvd_of_mod_eq_zero hfits.count_mod)
  have hgroup : output / (filter.count / conv.group) < conv.group :=
    Nat.div_lt_of_lt_mul (hcount.symm ▸ houtput)
  rw [channelOf, hshare, hfits.channels_eq, Nat.mul_comm filter.channels]
  exact mul_add_lt_mul hgroup hchannel

end Convolution

namespace Kernel

variable {conv : Convolution} {xDims wDims : ImageDims} {x w : Pixels} {start : Nat → Float32}

/-- The kernel reads what stands inside the image, and no default in its place. -/
theorem cell_taps_eq {data weights : Array Float32} (hfits : conv.Fits xDims wDims)
    (hdata : ∀ {n channel row column}, xDims.Contains n channel row column →
      data[((n * xDims.channels + channel) * xDims.height + row) * xDims.width + column]? =
        some (x n channel row column))
    (hweights : ∀ {o channel i j}, wDims.Contains o channel i j →
      weights[((o * wDims.channels + channel) * wDims.height + i) * wDims.width + j]? =
        some (w o channel i j))
    {n output : Nat} (hn : n < xDims.count) (houtput : output < wDims.count) (row column : Nat) :
    Convolution.cell data weights (start output)
        (conv.taps ⟨xDims.channels, ⟨xDims.height, xDims.width⟩, wDims.channels,
          ⟨wDims.height, wDims.width⟩⟩ wDims.count n output row column) =
      conv.convolved xDims wDims x w start n output row column := by
  have hshare : xDims.channels / conv.group = wDims.channels := by
    rw [hfits.channels_eq, Nat.mul_div_cancel _ hfits.group_pos]
  rw [Convolution.taps_eq_map hfits.kernel_eq, Convolution.cell, List.foldl_map,
    Convolution.convolved]
  refine List.foldl_ext _ _ _ fun sum (channel, i, j) hcell => ?_
  obtain ⟨hchannel, hi, hj, hrow, hcolumn⟩ := Window.mem_filterCells hcell
  rw [hfits.kernel_eq] at hi hj
  have hinput := hdata ⟨hn, hfits.channelOf_lt houtput hchannel, hrow, hcolumn⟩
  have hfilter := hweights ⟨houtput, hchannel, hi, hj⟩
  simp only [Convolution.channelOf, hshare] at hinput ⊢
  simp only [Convolution.Extents.inputOffset, Convolution.Extents.filterOffset,
    Array.getD_eq_getD_getElem?, hinput, hfilter, Option.getD_some]

/-- The bias tensor gives the numbers that the sums start from. -/
def Starts (bias? : Option Tensor) (count : Nat) (start : Nat → Float32) : Prop :=
  ∃ elements, requireBias bias? count = .ok elements ∧
    ∀ o < count, elements.getD o 0.0 = start o

theorem starts_none (count : Nat) : Starts none count fun _ => 0.0 := by
  refine ⟨Array.replicate count 0.0, rfl, fun o ho => ?_⟩
  simp [Array.getD_eq_getD_getElem?, ho]

theorem starts_some {bias : Tensor} {count : Nat} {y : Nat → Nat → Nat → Float32}
    (hbias : bias.Stacks [count] ⟨1, 1, count, y⟩) : Starts (some bias) count (y 0 0) := by
  obtain ⟨elements, helements⟩ := (@exists_requireBias_iff (some bias) count).mpr
    fun other hother => Option.mem_some_iff.mp hother ▸ hbias.type_eq
  obtain ⟨data, hsize, rfl, -, hcells⟩ := hbias
  obtain rfl : data = elements := by
    simpa [requireBias, requireSingle, Tensor.elements?, requireShape, Shape.vector] using helements
  refine ⟨data, helements, fun o ho => ?_⟩
  have hcell := hcells 0 0 o Nat.one_pos Nat.one_pos ho
  rw [Nat.zero_mul, Nat.zero_add, Nat.zero_mul, Nat.zero_add] at hcell
  exact Tensor.getD_of_getElem? hcell

/-- The checks of the kernel pass when the extents fit. -/
theorem exists_convolution_eq_ok {bias? : Option Tensor} {data weights elements : Array Float32}
    {hdata : data.size = Shape.count ⟨xDims.stored .channelsFirst⟩}
    {hweights : weights.size = Shape.count ⟨wDims.stored .channelsFirst⟩}
    (hfits : conv.Fits xDims wDims) (helements : requireBias bias? wDims.count = .ok elements) :
    let dims := conv.resultDims xDims wDims
    ∃ f, convolution conv ⟨.f32, ⟨xDims.stored .channelsFirst⟩, data, hdata⟩
        ⟨.f32, ⟨wDims.stored .channelsFirst⟩, weights, hweights⟩ bias?
        (Tensor.zeros .f32 ⟨dims.stored .channelsFirst⟩) =
          .ok (Tensor.tabulate .f32 ⟨dims.stored .channelsFirst⟩ f) ∧
      ∀ n o row column, f [n, o, row, column] =
        Convolution.cell data weights (elements.getD o 0.0)
          (conv.taps ⟨xDims.channels, ⟨xDims.height, xDims.width⟩, wDims.channels,
            ⟨wDims.height, wDims.width⟩⟩ wDims.count n o row column) := by
  intro dims
  have hx : requireSingle "conv2d" ⟨.f32, ⟨xDims.stored .channelsFirst⟩, data, hdata⟩ =
      .ok data := rfl
  have hw : requireSingle "conv2d" ⟨.f32, ⟨wDims.stored .channelsFirst⟩, weights, hweights⟩ =
      .ok weights := rfl
  obtain ⟨y, hy⟩ : ∃ y, requireSingle "conv2d"
      (Tensor.zeros .f32 ⟨dims.stored .channelsFirst⟩) = .ok y := ⟨_, rfl⟩
  have hshape := Convolution.outputShape_eq_ok_iff.mpr ⟨hfits, rfl⟩
  have hsame : requireShape "conv2d (output)" ⟨dims.stored .channelsFirst⟩
      (Tensor.zeros .f32 ⟨dims.stored .channelsFirst⟩).shape = .ok () :=
    requireShape_eq_ok_iff.mpr rfl
  refine ⟨?cells, ?done, ?read⟩
  case done =>
    rw [convolution, hx, ok_bind, hw, ok_bind, hy, ok_bind, hshape, ok_bind, hsame, ok_bind]
    simp only [ImageDims.stored, Lowering.StorageOrder.arrange, helements, ok_bind]
    rfl
  case read => exact fun n o row column => rfl

theorem convolution_depicts {input filter : Tensor} {bias? : Option Tensor}
    (hfits : conv.Fits xDims wDims) (hinput : input.Depicts .channelsFirst xDims x)
    (hfilter : filter.Depicts .channelsFirst wDims w) (hbias : Starts bias? wDims.count start) :
    let dims := conv.resultDims xDims wDims
    ∃ result, convolution conv input filter bias?
        (Tensor.zeros .f32 ⟨dims.stored .channelsFirst⟩) = .ok result ∧
      result.Depicts .channelsFirst dims (conv.convolved xDims wDims x w start) := by
  intro dims
  obtain ⟨_, _, data, hdata⟩ := input
  obtain ⟨rfl, rfl⟩ := TensorType.mk.inj hinput.type_eq
  obtain ⟨_, _, weights, hweights⟩ := filter
  obtain ⟨rfl, rfl⟩ := TensorType.mk.inj hfilter.type_eq
  obtain ⟨elements, helements, hstart⟩ := hbias
  obtain ⟨f, hdone, hcells⟩ := @exists_convolution_eq_ok conv xDims wDims bias? data weights
    elements hdata hweights hfits helements
  refine ⟨_, hdone, Tensor.tabulate_depicts ?_⟩
  intro n output row column hcontains
  have hcell := hcells n output row column
  rw [hstart output hcontains.channel] at hcell
  refine hcell.trans (cell_taps_eq hfits ?_ ?_ hcontains.count hcontains.channel row column)
  · intro n channel row column hinside
    rw [← offset_four]
    exact Tensor.getElem?_of_at? (hinput.pixel?_eq hinside)
  · intro o channel i j hinside
    rw [← offset_four]
    exact Tensor.getElem?_of_at? (hfilter.pixel?_eq hinside)

end Kernel

namespace Convolution

/-- The same sum over numbers that are looked up in the tensors, where all of them are found. -/
def sum? (conv : Convolution) (input filter : ImageDims) (order : Lowering.StorageOrder)
    (a b : Tensor) (start : Option Float32) (n output row column : Nat) : Option Float32 := do
  (conv.window.filterCells filter.channels ⟨input.height, input.width⟩ row column).foldlM
    (fun sum (channel, i, j) => do
      let x ← a.pixel? order n (conv.channelOf input filter output channel)
        (conv.window.rowAt row i).toNat (conv.window.columnAt column j).toNat
      let w ← b.pixel? order output channel i j
      return sum + x * w)
    (← start)

theorem sum?_eq_some {conv : Convolution} {input filter : ImageDims}
    {order : Lowering.StorageOrder} {a b : Tensor} {x w : Pixels} (hfits : conv.Fits input filter)
    (ha : a.Depicts order input x) (hb : b.Depicts order filter w) (start : Nat → Float32)
    {n output : Nat} (hn : n < input.count) (houtput : output < filter.count) (row column : Nat) :
    conv.sum? input filter order a b (some (start output)) n output row column =
      some (conv.convolved input filter x w start n output row column) := by
  refine foldlM_eq_some_foldl (fun (channel, i, j) hcell sum => ?_) _
  obtain ⟨hchannel, hi, hj, hrow, hcolumn⟩ := Window.mem_filterCells hcell
  rw [hfits.kernel_eq] at hi hj
  dsimp only
  rw [ha.pixel?_eq ⟨hn, hfits.channelOf_lt houtput hchannel, hrow, hcolumn⟩,
    hb.pixel?_eq ⟨houtput, hchannel, hi, hj⟩]
  rfl

end Convolution
end NetImport
