import NetImport.Lowering.Convolution
import NetImport.Proofs.Kernel.Rearrangement
import NetImport.Proofs.Tensor.RowMajor

/-!
# Images in two storage orders

A batch of images is stored with its channels first or last.  A transposition between the
orders moves every number to the coordinates that its new order gives it.
-/

namespace NetImport

open Lowering (StorageOrder)

/-- The extents of an image batch, or the coordinates of a number in it, as an order has
them. -/
def Lowering.StorageOrder.arrange (order : StorageOrder) (n channel row column : Nat) : List Nat :=
  match order with
  | .channelsFirst => [n, channel, row, column]
  | .channelsLast => [n, row, column, channel]

structure ImageDims where
  count : Nat
  channels : Nat
  height : Nat
  width : Nat

/-- The number of each image, channel, row and column. -/
abbrev Pixels := Nat → Nat → Nat → Nat → Float32

namespace ImageDims

def stored (dims : ImageDims) (order : StorageOrder) : List Nat :=
  order.arrange dims.count dims.channels dims.height dims.width

structure Contains (dims : ImageDims) (n channel row column : Nat) : Prop where
  count : n < dims.count
  channel : channel < dims.channels
  row : row < dims.height
  column : column < dims.width

variable {dims : ImageDims} {order : StorageOrder} {n channel row column : Nat}

theorem inBounds_stored_iff :
    inBounds (dims.stored order) (order.arrange n channel row column) ↔
      dims.Contains n channel row column := by
  constructor
  · intro hinside
    cases order <;> simp [stored, StorageOrder.arrange, inBounds] at hinside
    · exact ⟨hinside.1, hinside.2.1, hinside.2.2.1, hinside.2.2.2⟩
    · exact ⟨hinside.1, hinside.2.2.2, hinside.2.1, hinside.2.2.1⟩
  · intro hcontains
    cases order <;>
      simp [stored, StorageOrder.arrange, inBounds, hcontains.count, hcontains.channel,
        hcontains.row, hcontains.column]

end ImageDims

theorem ImageDims.length_stored (dims : ImageDims) (order : StorageOrder) :
    (dims.stored order).length = 4 := by
  cases order <;> rfl

/-- Any four extents are those of an image batch. -/
theorem exists_stored (order : StorageOrder) {extents : List Nat} (hlength : extents.length = 4) :
    ∃ dims : ImageDims, extents = dims.stored order := by
  obtain _ | ⟨a, _ | ⟨b, _ | ⟨c, _ | ⟨d, _ | ⟨extra, rest⟩⟩⟩⟩⟩ := extents <;> simp at hlength
  cases order with
  | channelsFirst => exact ⟨⟨a, b, c, d⟩, rfl⟩
  | channelsLast => exact ⟨⟨a, d, b, c⟩, rfl⟩

namespace Tensor

/-- The number of an image, channel, row and column in a tensor that stores images. -/
def pixel? (tensor : Tensor) (order : StorageOrder) (n channel row column : Nat) :
    Option Float32 :=
  tensor.at? .f32 (order.arrange n channel row column)

/-- A tensor stores the pixels of an image batch in an order. -/
structure Depicts (tensor : Tensor) (order : StorageOrder) (dims : ImageDims) (pixels : Pixels) :
    Prop where
  type_eq : tensor.type = ⟨.f32, ⟨dims.stored order⟩⟩
  pixel?_eq : ∀ {n channel row column}, dims.Contains n channel row column →
    tensor.pixel? order n channel row column = some (pixels n channel row column)

variable {tensor : Tensor} {order : StorageOrder} {dims : ImageDims} {pixels : Pixels}

theorem exists_depicts (htype : tensor.type = ⟨.f32, ⟨dims.stored order⟩⟩) :
    ∃ pixels, tensor.Depicts order dims pixels := by
  refine ⟨fun n channel row column => (tensor.pixel? order n channel row column).getD 0.0,
    htype, ?_⟩
  intro n channel row column hcontains
  obtain ⟨x, hx⟩ := exists_at? htype (ImageDims.inBounds_stored_iff.mpr hcontains)
  rw [pixel?, hx, Option.getD_some]

theorem tabulate_depicts {f : List Nat → Float32}
    (hf : ∀ {n channel row column}, dims.Contains n channel row column →
      f (order.arrange n channel row column) = pixels n channel row column) :
    (tabulate .f32 ⟨dims.stored order⟩ f).Depicts order dims pixels := by
  refine ⟨rfl, fun hcontains => ?_⟩
  have hcell := @at?_tabulate .f32 ⟨dims.stored order⟩ _ f
    (ImageDims.inBounds_stored_iff.mpr hcontains)
  rw [pixel?, hcell, hf hcontains]

end Tensor

namespace Kernel

/-- A permutation that takes one order to another. -/
structure Reorders (perm : List Nat) (order order' : StorageOrder) : Prop where
  shape_eq : ∀ dims : ImageDims,
    transposedShape ⟨dims.stored order⟩ perm = .ok ⟨dims.stored order'⟩
  offset_eq : ∀ (dims : ImageDims) (n channel row column : Nat),
    transposedOffset (dims.stored order) perm (order'.arrange n channel row column) =
      offset (dims.stored order) (order.arrange n channel row column)

theorem reorders_toChannelsFirst : Reorders [0, 3, 1, 2] .channelsLast .channelsFirst := by
  refine ⟨fun dims => rfl, fun dims n channel row column => ?_⟩
  simp only [transposedOffset, ImageDims.stored, StorageOrder.arrange, offset, strides, total,
    List.zipWith_cons_cons, List.zipWith_nil_left, List.foldr_cons, List.foldr_nil,
    List.getD_cons_zero, List.getD_cons_succ]
  omega

theorem reorders_toChannelsLast : Reorders [0, 2, 3, 1] .channelsFirst .channelsLast := by
  refine ⟨fun dims => rfl, fun dims n channel row column => ?_⟩
  simp only [transposedOffset, ImageDims.stored, StorageOrder.arrange, offset, strides, total,
    List.zipWith_cons_cons, List.zipWith_nil_left, List.foldr_cons, List.foldr_nil,
    List.getD_cons_zero, List.getD_cons_succ]
  omega

theorem transpose_depicts {input : Tensor} {perm : List Nat} {order order' : StorageOrder}
    {dims : ImageDims} {pixels : Pixels} (hperm : Reorders perm order order')
    (hinput : input.Depicts order dims pixels) :
    ∃ result, transpose input perm (Tensor.zeros .f32 ⟨dims.stored order'⟩) = .ok result ∧
      result.Depicts order' dims pixels := by
  obtain ⟨dtype, shape, data, hsize⟩ := input
  obtain ⟨rfl, rfl⟩ := TensorType.mk.inj hinput.type_eq
  refine ⟨_, transpose_eq_ok rfl (hperm.shape_eq dims), Tensor.tabulate_depicts ?_⟩
  intro n channel row column hcontains
  have hcell := Tensor.getElem?_of_at? (hinput.pixel?_eq hcontains)
  have hget := hperm.offset_eq dims n channel row column
  dsimp only
  rw [hget, Tensor.get, Array.getD_eq_getD_getElem?, hcell, Option.getD_some]

end Kernel

end NetImport
