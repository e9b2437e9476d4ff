import NetImport.Proofs.InPlace.Walks
import NetImport.Proofs.Tensor.Words

/-!
# The odometer of a shape

One scan from the last axis to the first finds the strides, and a second pass adds up the
position of some coordinates, unless one of them reaches its extent.  The coordinates in bounds
and the positions determine each other, and the steps from the origin meet the positions one
after the other before they come back to it.  Positions that are kept in words do so as well, as
long as the words are more than the elements, and no longer.
-/

namespace NetImport

theorem length_advance {dims coords : List Nat} (hlength : coords.length = dims.length) :
    (advance dims coords).2.length = dims.length := by
  induction dims generalizing coords with
  | nil => simp [advance]
  | cons d dims ih =>
      cases coords with
      | nil => simp at hlength
      | cons c coords =>
          have hrest := ih (Nat.succ.inj hlength)
          rcases hnext : advance dims coords with ⟨moved, next⟩
          rw [hnext] at hrest
          cases moved
          · by_cases hbelow : c + 1 < d <;> simp [advance, hnext, hbelow, hrest]
          · simp [advance, hnext, hrest]

/-- The coordinates after some steps from the origin, with the flag of the last step. -/
def advanced (dims : List Nat) : Nat → Bool × List Nat
  | 0 => (true, origin dims)
  | steps + 1 => advance dims (advanced dims steps).2

theorem length_advanced (dims : List Nat) (steps : Nat) :
    (advanced dims steps).2.length = dims.length := by
  induction steps with
  | zero => exact List.length_map ..
  | succ steps ih => exact length_advance ih

/-- As long as there are positions left, each step goes to the next one. -/
theorem advanced_spec {dims : List Nat} {steps : Nat} (hsteps : steps < product dims) :
    (advanced dims steps).1 = true ∧ inBounds dims (advanced dims steps).2 ∧
      offset dims (advanced dims steps).2 = steps := by
  induction steps with
  | zero => exact ⟨rfl, inBounds_origin (Nat.ne_of_gt hsteps), offset_origin dims⟩
  | succ steps ih =>
      obtain ⟨-, hinside, hoffset⟩ := ih (Nat.lt_of_succ_lt hsteps)
      rcases offset_advance hinside with ⟨hmoved, hnext⟩ | ⟨-, -, hlast⟩
      · exact ⟨hmoved, inBounds_advance hinside, by rw [advanced, hnext, hoffset]⟩
      · omega

/-- The step from the last position leads back to the origin. -/
theorem advanced_product {dims : List Nat} (hne : product dims ≠ 0) :
    advanced dims (product dims) = (false, origin dims) := by
  obtain ⟨last, hlast⟩ := Nat.exists_eq_succ_of_ne_zero hne
  obtain ⟨-, hinside, hoffset⟩ := @advanced_spec dims last (by omega)
  rcases offset_advance hinside with ⟨-, hnext⟩ | ⟨hflag, hwrap, -⟩
  · have hbeyond := offset_lt (inBounds_advance hinside)
    omega
  · rw [hlast, Nat.succ_eq_add_one, advanced]
    exact Prod.ext hflag hwrap

namespace Shape

variable {dims coords : List Nat} {position : Nat}

theorem flatIndex?_eq_some_iff :
    flatIndex? ⟨dims⟩ coords = some position ↔
      inBounds dims coords ∧ offset dims coords = position := by
  rw [flatIndex?, Option.ite_none_right_eq_some, Option.some.injEq]

theorem isSome_flatIndex?_iff :
    (flatIndex? ⟨dims⟩ coords).isSome ↔ List.Forall₂ (· < ·) coords dims := by
  rw [Option.isSome_iff_exists, ← inBounds_iff_forall₂]
  simp [flatIndex?_eq_some_iff]

/-- Coordinates in bounds and positions determine each other. -/
theorem bijOn_flatIndex? (dims : List Nat) :
    Set.BijOn (flatIndex? ⟨dims⟩) {coords | List.Forall₂ (· < ·) coords dims}
      (Set.image some (Set.Iio (product dims))) := by
  simp only [← inBounds_iff_forall₂]
  refine ⟨?_, ?_, ?_⟩
  · intro coords hcoords
    exact ⟨offset dims coords, offset_lt hcoords, (if_pos hcoords).symm⟩
  · intro coords hcoords coords' hcoords' hsame
    have hposition := (if_pos hcoords : flatIndex? ⟨dims⟩ coords = _)
    have hposition' := (if_pos hcoords' : flatIndex? ⟨dims⟩ coords' = _)
    exact eq_of_offset_eq hcoords hcoords'
      (Option.some.inj (hposition.symm.trans (hsame.trans hposition')))
  · rintro _ ⟨position, hposition, rfl⟩
    obtain ⟨coords, hcoords, hoffset⟩ := exists_offset_eq hposition
    exact ⟨coords, hcoords, flatIndex?_eq_some_iff.mpr ⟨hcoords, hoffset⟩⟩

/-- Words number the coordinates when there are more words than elements.  Otherwise the count
in words is itself the position of an element. -/
theorem bijOn_flatIndexInWords?_iff (bits : Nat) (dims : List Nat) :
    Set.BijOn (flatIndexInWords? bits ⟨dims⟩) {coords | List.Forall₂ (· < ·) coords dims}
      (Set.image some (Set.Iio (countInWords bits ⟨dims⟩))) ↔ product dims < twoPow bits := by
  constructor
  · intro hbij
    by_contra hmany
    have hword := Word.hold_lt bits (product dims)
    obtain ⟨coords, hcoords, hoffset⟩ :=
      exists_offset_eq (Nat.lt_of_lt_of_le hword (Nat.le_of_not_lt hmany))
    obtain ⟨position, hbelow, hposition⟩ := hbij.mapsTo (inBounds_iff_forall₂.mp hcoords)
    rw [flatIndexInWords?_eq_map, flatIndex?_eq_some_iff.mpr ⟨hcoords, hoffset⟩, Option.map_some,
      Word.hold_eq hword] at hposition
    obtain rfl := Option.some.inj hposition
    rw [countInWords_eq_hold] at hbelow
    exact Nat.lt_irrefl _ hbelow
  · intro hcount
    have hsame : flatIndexInWords? bits ⟨dims⟩ = flatIndex? ⟨dims⟩ :=
      funext (flatIndexInWords?_eq hcount)
    rw [hsame, countInWords_eq_hold, Shape.count, Word.hold_eq hcount]
    exact bijOn_flatIndex? dims

end Shape

namespace InPlace

/-- The strides by one scan from the last axis to the first, with the stride of the next axis
beside those found so far. -/
def scanStrides (dims : List Nat) : Nat × List Nat :=
  dims.foldr (fun extent state => (state.1 * extent, state.1 :: state.2)) (1, [])

/-- Adds up a position axis by axis, up to the first coordinate that reaches its extent. -/
def scanPosition? (dims coords : List Nat) : Option Nat :=
  if coords.length = dims.length then
    ((coords.zip dims).zip (scanStrides dims).2).foldlM (fun position axis =>
      if axis.1.1 < axis.1.2 then some (position + axis.1.1 * axis.2) else none) 0
  else none

/-- Steps the coordinates on by the loop over the axes. -/
def looped (dims : List Nat) : Nat → Except Stop (Bool × List Nat)
  | 0 => .ok (true, List.replicate dims.length 0)
  | steps + 1 => do
      let state ← looped dims steps
      stepCoords dims dims.length state.2

theorem scanStrides_eq (dims : List Nat) : scanStrides dims = (product dims, strides dims) := by
  induction dims with
  | nil => rfl
  | cons d dims ih =>
      rw [scanStrides, List.foldr_cons, ← scanStrides, ih, product_cons, strides, Nat.mul_comm]

theorem foldlM_position {dims coords : List Nat} (hlength : coords.length = dims.length)
    (start : Nat) :
    ((coords.zip dims).zip (strides dims)).foldlM (fun position axis =>
        if axis.1.1 < axis.1.2 then some (position + axis.1.1 * axis.2) else none) start =
      if inBounds dims coords then some (start + offset dims coords) else none := by
  induction dims generalizing coords start with
  | nil =>
      obtain rfl := List.eq_nil_of_length_eq_zero hlength
      rfl
  | cons d dims ih =>
      cases coords with
      | nil => simp at hlength
      | cons c coords =>
          have hrest := ih (Nat.succ.inj hlength) (start + c * product dims)
          rw [strides, List.zip_cons_cons, List.zip_cons_cons, List.foldlM_cons]
          by_cases hbelow : c < d
          · rw [if_pos hbelow]
            exact hrest.trans (by simp [inBounds, hbelow, Nat.add_assoc])
          · rw [if_neg hbelow]
            simp [inBounds, hbelow]

theorem scanPosition?_eq (dims coords : List Nat) :
    scanPosition? dims coords = Shape.flatIndex? ⟨dims⟩ coords := by
  unfold scanPosition? Shape.flatIndex?
  by_cases hlength : coords.length = dims.length
  · rw [if_pos hlength, scanStrides_eq, foldlM_position hlength, Nat.zero_add]
  · rw [if_neg hlength, if_neg (mt length_of_inBounds hlength)]

theorem looped_eq (dims : List Nat) (steps : Nat) : looped dims steps = .ok (advanced dims steps) := by
  induction steps with
  | zero =>
      rw [looped, advanced, origin, List.map_const']
  | succ steps ih =>
      rw [looped, ih, ok_bind, stepCoords_eq_ok (length_advanced dims steps)]
      rfl

/-- The positions of a shape number its coordinates.  The loop over the axes starts at the
origin, meets the coordinates of each position at the step of that number, and returns to the
origin with the flag off at the step after the last.  Positions in words are there for the same
coordinates, and number them exactly in the shapes with fewer elements than there are words. -/
theorem odometer_enumerates (bits : Nat) (dims : List Nat) :
    (∀ coords, scanPosition? dims coords = Shape.flatIndex? ⟨dims⟩ coords ∧
      ((Shape.flatIndex? ⟨dims⟩ coords).isSome ↔ List.Forall₂ (· < ·) coords dims) ∧
      ((Shape.flatIndexInWords? bits ⟨dims⟩ coords).isSome ↔
        List.Forall₂ (· < ·) coords dims)) ∧
    Set.BijOn (Shape.flatIndex? ⟨dims⟩) {coords | List.Forall₂ (· < ·) coords dims}
      (Set.image some (Set.Iio (product dims))) ∧
    (Set.BijOn (Shape.flatIndexInWords? bits ⟨dims⟩) {coords | List.Forall₂ (· < ·) coords dims}
      (Set.image some (Set.Iio (Shape.countInWords bits ⟨dims⟩))) ↔ product dims < twoPow bits) ∧
    (∀ steps, looped dims steps = .ok (advanced dims steps)) ∧
    (∀ steps < product dims, ∃ coords, advanced dims steps = (true, coords) ∧
      Shape.flatIndex? ⟨dims⟩ coords = some steps ∧
      Shape.flatIndexInWords? bits ⟨dims⟩ coords = some (Word.hold bits steps)) ∧
    (product dims ≠ 0 → advanced dims (product dims) = (false, origin dims)) := by
  refine ⟨fun coords => ⟨scanPosition?_eq dims coords, Shape.isSome_flatIndex?_iff, ?_⟩,
    Shape.bijOn_flatIndex? dims, Shape.bijOn_flatIndexInWords?_iff bits dims, looped_eq dims,
    fun steps hsteps => ?_, advanced_product⟩
  · rw [Shape.flatIndexInWords?_eq_map, Option.isSome_map]
    exact Shape.isSome_flatIndex?_iff
  · obtain ⟨hmoved, hinside, hoffset⟩ := advanced_spec hsteps
    have hposition := Shape.flatIndex?_eq_some_iff.mpr ⟨hinside, hoffset⟩
    refine ⟨_, Prod.ext hmoved rfl, hposition, ?_⟩
    rw [Shape.flatIndexInWords?_eq_map, hposition, Option.map_some]

/-- The eighth of twelve coordinate lists, and the return after the twelfth. -/
theorem odometer_enumerates_twelve :
    looped [2, 3, 2] 7 = .ok (true, [1, 0, 1]) ∧
      Shape.flatIndex? ⟨[2, 3, 2]⟩ [1, 0, 1] = some 7 ∧
      Shape.flatIndexInWords? 4 ⟨[2, 3, 2]⟩ [1, 0, 1] = some 7 ∧
      looped [2, 3, 2] 12 = .ok (false, [0, 0, 0]) := by
  obtain ⟨-, -, -, hloop, hvisits, hreturns⟩ := odometer_enumerates 4 [2, 3, 2]
  obtain ⟨coords, hcoords, hposition, hword⟩ := hvisits 7 (by decide)
  obtain rfl : [1, 0, 1] = coords := congrArg Prod.snd hcoords
  refine ⟨(hloop 7).trans (congrArg _ hcoords), hposition, hword, ?_⟩
  exact (hloop 12).trans (congrArg _ (hreturns (by decide)))

/-- As many elements as words count as none, so that no position is below the count; with more
elements two rows begin at the same position. -/
theorem wideShapes_positions_escape :
    Shape.countInWords 64 ⟨[twoPow 32, twoPow 32]⟩ = 0 ∧
      Shape.flatIndexInWords? 64 ⟨[twoPow 32, twoPow 32]⟩ [1, 0] = some (twoPow 32) ∧
      ¬Set.BijOn (Shape.flatIndexInWords? 64 ⟨[twoPow 32, twoPow 32]⟩)
        {coords | List.Forall₂ (· < ·) coords [twoPow 32, twoPow 32]}
        (Set.image some (Set.Iio (Shape.countInWords 64 ⟨[twoPow 32, twoPow 32]⟩))) ∧
      Shape.flatIndexInWords? 64 ⟨[twoPow 33, twoPow 32]⟩ [twoPow 32, 0] =
        Shape.flatIndexInWords? 64 ⟨[twoPow 33, twoPow 32]⟩ [0, 0] :=
  ⟨by decide, by decide, mt (Shape.bijOn_flatIndexInWords?_iff _ _).mp (by decide), by decide⟩

end InPlace
end NetImport
