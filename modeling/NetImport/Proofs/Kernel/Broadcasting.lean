import NetImport.Proofs.Kernel.Elementwise
import NetImport.Proofs.Kernel.Rearrangement
import NetImport.Proofs.Tensor.Elements

/-!
# Elements of broadcast operands

Broadcasting lays the extents of an operand on a run of the axes of the result.  Along
each of its axes the operand moves with the result, unless it has a single place there.
Arithmetic then combines the elements at the same coordinates.
-/

namespace NetImport
namespace Kernel

variable {a b dims target coords : List Nat} {axis place : Nat}

/-- Extents that can be laid on a run of extents: each is the same, or one. -/
abbrev Stretches (dims run : List Nat) : Prop :=
  List.Forall₂ (fun d t => d = t ∨ d = 1) dims run

theorem stretches_eq_true_iff :
    stretches dims target = true ↔ Stretches dims (target.take dims.length) := by
  induction dims generalizing target with
  | nil => simp [stretches, Stretches]
  | cons d dims ih =>
      cases target with
      | nil => simp [stretches, Stretches]
      | cons t target => simp [stretches, Stretches, ih]

theorem checkBroadcast_eq_ok_iff :
    checkBroadcast axis ⟨b⟩ ⟨a⟩ = .ok () ↔
      axis + b.length ≤ a.length ∧ Stretches b ((a.drop axis).take b.length) := by
  rw [← stretches_eq_true_iff]
  unfold checkBroadcast
  split
  · next hfits => exact iff_of_true rfl hfits
  · next hfits => exact iff_of_false (by simp) hfits

/-- Coordinates of an operand that follow those of the result from some place on.  Along
an extent of one they stay at zero. -/
structure Follows (b : List Nat) (place : Nat) (coords coords' : List Nat) : Prop where
  length_eq : coords'.length = b.length
  getElem?_eq : ∀ i extent, b[i]? = some extent →
    coords'[i]? = if extent = 1 then some 0 else coords[place + i]?

/-- The coordinates that the kernel takes its elements from. -/
def sourceCoords (dims : List Nat) (axis : Nat) (coords : List Nat) : List Nat :=
  List.zipWith (fun d c => if d = 1 then 0 else c) dims (coords.drop axis)

theorem follows_sourceCoords (hlength : place + b.length ≤ coords.length) :
    Follows b place coords (sourceCoords b place coords) := by
  have hcovered : b.length ≤ (coords.drop place).length := by
    rw [List.length_drop]
    omega
  constructor
  · rw [sourceCoords, List.length_zipWith, Nat.min_eq_left hcovered]
  · intro i extent hextent
    have hi : i < b.length := (List.getElem?_eq_some_iff.mp hextent).1
    have hplace : place + i < coords.length := by omega
    rw [sourceCoords, List.getElem?_zipWith, hextent, List.getElem?_drop,
      List.getElem?_eq_getElem hplace]
    dsimp only
    split <;> rfl

theorem inBounds_of_stretches (hstretches : stretches dims target = true)
    (hcoords : inBounds target coords) :
    inBounds dims (List.zipWith (fun d c => if d = 1 then 0 else c) dims coords) := by
  induction dims generalizing target coords with
  | nil => rfl
  | cons d dims ih =>
      cases target with
      | nil => cases hstretches
      | cons t target =>
          cases coords with
          | nil => cases hcoords
          | cons c coords =>
              simp only [stretches, Bool.and_eq_true, Bool.or_eq_true, beq_iff_eq] at hstretches
              obtain ⟨hextent, hrest⟩ := hstretches
              obtain ⟨hc, hothers⟩ := (inBounds_cons ..).mp hcoords
              refine (inBounds_cons ..).mpr ⟨?_, ih hrest hothers⟩
              dsimp only
              split
              · next hone => exact hone ▸ Nat.one_pos
              · next hone =>
                  have hsame : d = t := hextent.resolve_right hone
                  exact hsame ▸ hc

theorem inBounds_sourceCoords (hfits : checkBroadcast axis ⟨b⟩ ⟨a⟩ = .ok ())
    (hcoords : inBounds a coords) :
    inBounds b (sourceCoords b axis coords) := by
  obtain ⟨-, hstretches⟩ := checkBroadcast_eq_ok_iff.mp hfits
  exact inBounds_of_stretches (stretches_eq_true_iff.mpr hstretches) (inBounds_drop axis hcoords)

/-- Each element of a broadcast operand is the one at the coordinates that follow. -/
theorem exists_broadcast {y : Tensor} (htype : y.type = ⟨.f32, ⟨b⟩⟩)
    (hfits : checkBroadcast place ⟨b⟩ ⟨a⟩ = .ok ()) :
    ∃ result, broadcast y place (Tensor.zeros .f32 ⟨a⟩) = .ok result ∧
      result.type = ⟨.f32, ⟨a⟩⟩ ∧
      ∀ coords, inBounds a coords → ∃ coords', Follows b place coords coords' ∧
        inBounds b coords' ∧ result.at? .f32 coords = y.at? .f32 coords' := by
  obtain ⟨dtype, shape, data, hsize⟩ := y
  obtain ⟨rfl, rfl⟩ := TensorType.mk.inj htype
  refine ⟨_, broadcast_eq_ok rfl hfits, rfl, ?_⟩
  intro coords hcoords
  have hlength : coords.length = a.length := length_of_inBounds hcoords
  obtain ⟨hinside, -⟩ := checkBroadcast_eq_ok_iff.mp hfits
  have hsource := inBounds_sourceCoords hfits hcoords
  refine ⟨sourceCoords b place coords, follows_sourceCoords (by omega), hsource, ?_⟩
  have hown := @Tensor.at?_own ⟨.f32, ⟨b⟩, data, hsize⟩ _ hsource
  exact (@Tensor.at?_tabulate .f32 ⟨a⟩ _ _ hcoords).trans hown.symm

/-- Arithmetic combines the elements at the same coordinates. -/
theorem exists_arithmetic (fn : ArithmeticOp) {x z : Tensor} (hx : x.type = ⟨.f32, ⟨dims⟩⟩)
    (hz : z.type = ⟨.f32, ⟨dims⟩⟩) :
    ∃ result, arithmetic fn x z (Tensor.zeros .f32 ⟨dims⟩) = .ok result ∧
      result.type = ⟨.f32, ⟨dims⟩⟩ ∧
      ∀ coords, inBounds dims coords → ∃ l r, x.at? .f32 coords = some l ∧
        z.at? .f32 coords = some r ∧ result.at? .f32 coords = some (fn.apply l r) := by
  obtain ⟨dtype, shape, left, hleft⟩ := x
  obtain ⟨dtype', shape', right, hright⟩ := z
  obtain ⟨rfl, rfl⟩ := TensorType.mk.inj hx
  obtain ⟨rfl, rfl⟩ := TensorType.mk.inj hz
  have hsize : (Array.zipWith fn.apply left right).size = Shape.count ⟨dims⟩ := by
    rw [Array.size_zipWith, hleft, hright, Nat.min_self]
  refine ⟨⟨.f32, ⟨dims⟩, _, hsize⟩, ?_, rfl, ?_⟩
  · have hmade : Tensor.ofArray .f32 ⟨dims⟩ (Array.zipWith fn.apply left right) =
        .ok ⟨.f32, ⟨dims⟩, _, hsize⟩ := dif_pos hsize
    simpa [arithmetic, requireSingle, Tensor.elements?, requireShape, Tensor.zeros,
      Tensor.constant] using hmade
  · intro coords hcoords
    obtain ⟨l, hl⟩ := @Tensor.exists_at? ⟨.f32, ⟨dims⟩, left, hleft⟩ dims coords .f32 rfl hcoords
    obtain ⟨r, hr⟩ := @Tensor.exists_at? ⟨.f32, ⟨dims⟩, right, hright⟩ dims coords .f32 rfl hcoords
    have hindex : Shape.flatIndex? ⟨dims⟩ coords = some (offset dims coords) := if_pos hcoords
    have hcell : (Array.zipWith fn.apply left right)[offset dims coords]? =
        some (fn.apply l r) := by
      rw [Array.getElem?_zipWith, Tensor.getElem?_of_at? hl, Tensor.getElem?_of_at? hr]
    refine ⟨l, r, hl, hr, ?_⟩
    rw [Tensor.at?, hindex]
    exact hcell

end Kernel
end NetImport
