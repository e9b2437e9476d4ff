import NetImport.Tensor.Shape
import Mathlib.Data.List.Forall2

/-!
# Coordinates of a shape

The walk over a shape stays inside it: stepping on from coordinates in bounds leads to
coordinates in bounds, and a shape with an element has its origin in bounds.
-/

namespace NetImport

theorem inBounds_iff_forall₂ {dims coords : List Nat} :
    inBounds dims coords ↔ List.Forall₂ (· < ·) coords dims := by
  induction dims generalizing coords with
  | nil => cases coords <;> simp [inBounds]
  | cons d dims ih => cases coords <;> simp [inBounds, ih]

theorem inBounds_drop {dims coords : List Nat} (count : Nat) (hcoords : inBounds dims coords) :
    inBounds (dims.drop count) (coords.drop count) :=
  inBounds_iff_forall₂.mpr (List.forall₂_drop count (inBounds_iff_forall₂.mp hcoords))

theorem inBounds_advance {dims coords : List Nat} (hcoords : inBounds dims coords) :
    inBounds dims (advance dims coords).2 := by
  induction dims generalizing coords with
  | nil =>
      cases coords with
      | nil => rfl
      | cons c coords => simp [inBounds] at hcoords
  | cons d dims ih =>
      cases coords with
      | nil => simp [inBounds] at hcoords
      | cons c coords =>
          simp only [inBounds, Bool.and_eq_true, decide_eq_true_eq] at hcoords
          obtain ⟨hc, hrest⟩ := hcoords
          have hnext := ih hrest
          unfold advance
          split
          · next rest hrest' =>
              simp only [hrest'] at hnext
              simp [inBounds, hc, hnext]
          · next rest hrest' =>
              simp only [hrest'] at hnext
              split
              · next hbelow => simp [inBounds, hbelow, hnext]
              · simp [inBounds, hnext]
                omega

theorem inBounds_of_mem_walk {dims coords start : List Nat} {steps : Nat}
    (hstart : inBounds dims start) (hmem : coords ∈ walk dims steps start) :
    inBounds dims coords := by
  induction steps generalizing start with
  | zero => cases hmem
  | succ steps ih =>
      rcases List.mem_cons.mp hmem with rfl | hrest
      · exact hstart
      · exact ih (inBounds_advance hstart) hrest

theorem inBounds_origin {dims : List Nat} (hproduct : product dims ≠ 0) :
    inBounds dims (origin dims) := by
  induction dims with
  | nil => rfl
  | cons d dims ih =>
      have hfactors : d ≠ 0 ∧ product dims ≠ 0 := Nat.mul_ne_zero_iff.mp hproduct
      have hrest := ih hfactors.2
      simp only [origin, List.map_cons, inBounds, Bool.and_eq_true, decide_eq_true_eq]
      exact ⟨Nat.pos_of_ne_zero hfactors.1, hrest⟩

theorem Shape.inBounds_of_mem_coordinates {shape : Shape} {coords : List Nat}
    (hmem : coords ∈ shape.coordinates) :
    inBounds shape.dims coords := by
  by_cases hcount : shape.count = 0
  · simp [Shape.coordinates, hcount, walk] at hmem
  · exact inBounds_of_mem_walk (inBounds_origin hcount) hmem

end NetImport
