import NetImport.Proofs.InPlace.Blocks
import NetImport.Proofs.Tensor.RowMajor
import Mathlib.Data.List.Induction

/-!
# Routines that walk through the coordinates of their output

One loop passes over the places of the output and keeps their coordinates beside it.  The
coordinates step on from the last axis to the first, as long as an axis has reached its
extent and starts over.
-/

namespace NetImport
namespace InPlace

variable {α : Type}

/-- Steps the coordinates of the axes below `axis` on, the last one first. -/
def nextCoords (dims : List Nat) : Nat → List Nat → Except Stop (List Nat)
  | 0, coords => .ok coords
  | axis + 1, coords => do
      let c ← entry coords axis
      let d ← entry dims axis
      if c + 1 < d then return coords.set axis (c + 1)
      else nextCoords dims axis (coords.set axis 0)

/-- The same steps, with a flag that is off when every axis has started over. -/
def stepCoords (dims : List Nat) : Nat → List Nat → Except Stop (Bool × List Nat)
  | 0, coords => .ok (false, coords)
  | axis + 1, coords => do
      let c ← entry coords axis
      let d ← entry dims axis
      if c + 1 < d then return (true, coords.set axis (c + 1))
      else stepCoords dims axis (coords.set axis 0)

/-- Copies the element of the source at the position for the coordinates into a place. -/
def copyRound (dims : List Nat) (source : Array α) (position : List Nat → Except Stop Nat)
    (coords : List Nat) (place : Nat) : Routine (Array α) (List Nat) := do
  let p ← position coords
  let value ← load source p
  store place value
  nextCoords dims dims.length coords

def copyAlong (dims : List Nat) (source : Array α) (position : List Nat → Except Stop Nat) :
    Routine (Array α) Unit := do
  let buffer ← get
  if buffer.isEmpty then return ()
  else
    let origin := List.replicate dims.length 0
    let _ ← (List.range buffer.size).foldlM (copyRound dims source position) origin

/-! ## Stepping on -/

theorem advance_concat {dims coords : List Nat} (d c : Nat)
    (hlength : coords.length = dims.length) :
    advance (dims ++ [d]) (coords ++ [c]) =
      if c + 1 < d then (true, coords ++ [c + 1])
      else ((advance dims coords).1, (advance dims coords).2 ++ [0]) := by
  induction dims generalizing coords with
  | nil =>
      obtain rfl := List.eq_nil_of_length_eq_zero hlength
      by_cases hbelow : c + 1 < d <;> simp [advance, hbelow]
  | cons d' dims ih =>
      cases coords with
      | nil => simp at hlength
      | cons c' coords =>
          have hrest := ih (Nat.succ.inj hlength)
          by_cases hbelow : c + 1 < d
          · rw [if_pos hbelow] at hrest
            simp [advance, hrest, hbelow]
          · rw [if_neg hbelow] at hrest
            rcases hnext : advance dims coords with ⟨moved, next⟩
            rw [hnext] at hrest
            cases moved
            · by_cases hcarry : c' + 1 < d' <;> simp [advance, hrest, hnext, hbelow, hcarry]
            · simp [advance, hrest, hnext, hbelow]

theorem stepCoords_append {dims coords : List Nat} (dims' coords' : List Nat)
    (hlength : coords.length = dims.length) :
    stepCoords (dims ++ dims') dims.length (coords ++ coords') =
      .ok ((advance dims coords).1, (advance dims coords).2 ++ coords') := by
  induction dims using List.reverseRecOn generalizing coords dims' coords' with
  | nil =>
      obtain rfl := List.eq_nil_of_length_eq_zero hlength
      rfl
  | append_singleton dims d ih =>
      obtain ⟨coords, c, rfl⟩ : ∃ start last, coords = start ++ [last] := by
        rcases List.eq_nil_or_concat' coords with rfl | hconcat
        · simp at hlength
        · exact hconcat
      have hstart : coords.length = dims.length := by simpa using hlength
      have hc : entry (coords ++ [c] ++ coords') dims.length = .ok c := by
        apply entry_eq_ok
        simp [← hstart]
      have hd : entry (dims ++ [d] ++ dims') dims.length = .ok d := by
        apply entry_eq_ok
        simp
      have hset : ∀ x, (coords ++ [c] ++ coords').set dims.length x =
          coords ++ [x] ++ coords' := by
        intro x
        simp [← hstart]
      have hcount : (dims ++ [d]).length = dims.length + 1 := by simp
      rw [hcount, stepCoords, hc, hd, ok_bind, ok_bind, hset, hset, advance_concat d c hstart]
      by_cases hbelow : c + 1 < d
      · rw [if_pos hbelow, if_pos hbelow]
        rfl
      · rw [if_neg hbelow, if_neg hbelow, List.append_assoc, List.append_assoc,
          ih ([d] ++ dims') ([0] ++ coords') hstart, List.append_assoc]

/-- The steps over all axes, with the flag of the walk. -/
theorem stepCoords_eq_ok {dims coords : List Nat} (hlength : coords.length = dims.length) :
    stepCoords dims dims.length coords = .ok (advance dims coords) := by
  have hnext := stepCoords_append [] [] hlength
  simpa only [List.append_nil] using hnext

theorem nextCoords_eq_map (dims : List Nat) (axis : Nat) (coords : List Nat) :
    nextCoords dims axis coords = Prod.snd <$> stepCoords dims axis coords := by
  induction axis generalizing coords with
  | zero => rfl
  | succ axis ih =>
      rw [nextCoords, stepCoords, map_bind]
      refine bind_congr fun c => ?_
      rw [map_bind]
      refine bind_congr fun d => ?_
      by_cases hbelow : c + 1 < d
      · rw [if_pos hbelow, if_pos hbelow, map_pure]
      · rw [if_neg hbelow, if_neg hbelow, ih]

theorem nextCoords_eq_ok {dims coords : List Nat} (hlength : coords.length = dims.length) :
    nextCoords dims dims.length coords = .ok (advance dims coords).2 := by
  rw [nextCoords_eq_map, stepCoords_eq_ok hlength]
  rfl

/-! ## What the loop leaves -/

theorem copyRound_run {dims coords : List Nat} {source : Array α}
    {position : List Nat → Except Stop Nat} {element : α} (hcoords : inBounds dims coords)
    (hread : (position coords >>= load source) = .ok element) (front back : List α) (u : α) :
    copyRound dims source position coords front.length (front ++ u :: back).toArray =
      .ok (advance dims coords).2 (front ++ element :: back).toArray := by
  obtain ⟨p, hp, hvalue⟩ := bind_eq_ok_iff.mp hread
  have hwritten : store front.length element (front ++ u :: back).toArray =
      .ok () (front ++ element :: back).toArray := by
    simpa using rewrites_store front.length u element front back rfl
  rw [copyRound, hp, read_ok_bind_apply, hvalue, read_ok_bind_apply, bind_apply_of_ok hwritten,
    nextCoords_eq_ok (length_of_inBounds hcoords)]
  rfl

section Walk

variable {shape : Shape} {source : Array α} {position : List Nat → Except Stop Nat}
  {element : List Nat → α}
  (hread : ∀ coords, inBounds shape.dims coords →
    (position coords >>= load source) = .ok (element coords))
include hread

/-- The rounds of a walk that begins at the end of `front`. -/
theorem foldlM_copyRound {coords : List Nat} (front old : List α)
    (hcoords : inBounds shape.dims coords) :
    ∃ last, (List.range' front.length old.length).foldlM
        (copyRound shape.dims source position) coords (front ++ old).toArray =
      .ok last (front ++ (walk shape.dims old.length coords).map element).toArray := by
  induction old generalizing front coords with
  | nil => exact ⟨coords, rfl⟩
  | cons u old ih =>
      have hround := copyRound_run hcoords (hread coords hcoords) front old u
      obtain ⟨last, hrest⟩ := ih (front ++ [element coords]) (inBounds_advance hcoords)
      refine ⟨last, ?_⟩
      rw [List.length_cons, List.range'_succ, List.foldlM_cons, bind_apply_of_ok hround]
      simpa [walk] using hrest

theorem copyAlong_run {buffer : Array α} (hsize : buffer.size = shape.count) :
    copyAlong shape.dims source position buffer =
      .ok () (shape.coordinates.map element).toArray := by
  rw [copyAlong, get_bind_apply]
  by_cases hempty : buffer.isEmpty
  · have hbuffer : buffer = #[] := by simpa using hempty
    have hcount : shape.count = 0 := by
      rw [← hsize, hbuffer]
      rfl
    rw [if_pos hempty, hbuffer, Shape.coordinates, hcount]
    rfl
  · have hcount : shape.count ≠ 0 := by
      rw [← hsize]
      simpa using hempty
    have horigin : List.replicate shape.dims.length 0 = origin shape.dims :=
      (List.map_const' ..).symm
    obtain ⟨last, hloop⟩ := foldlM_copyRound hread [] buffer.toList
      (inBounds_origin hcount)
    rw [List.nil_append, List.nil_append, List.length_nil, ← List.range_eq_range',
      Array.length_toList, Array.toArray_toList, ← horigin] at hloop
    rw [if_neg hempty, bind_apply_of_ok hloop, hsize, horigin]
    rfl

end Walk

/-! ## Nested loops -/

theorem mapM_coordinates_cons {d : Nat} {dims : List Nat} (f : List Nat → Except Stop α) :
    (Shape.coordinates ⟨d :: dims⟩).mapM f =
      List.flatten <$> (List.range d).mapM fun c =>
        (Shape.coordinates ⟨dims⟩).mapM fun rest => f (c :: rest) := by
  simp only [Shape.coordinates_cons, mapM_flatMap, List.mapM_map]
  rfl

namespace Fills

/-- A loop over one axis fills a block when its rounds fill the blocks of the other axes. -/
theorem forM_axis {d start : Nat} {dims : List Nat} {body : Nat → Routine (Array α) Unit}
    {f : List Nat → Except Stop α}
    (hbody : ∀ c < d, Fills (body c) (start + c * product dims) (product dims)
      ((Shape.coordinates ⟨dims⟩).mapM fun rest => f (c :: rest))) :
    Fills ((List.range d).forM body) start (product (d :: dims))
      ((Shape.coordinates ⟨d :: dims⟩).mapM f) := by
  rw [mapM_coordinates_cons]
  change Fills _ start (d * product dims) _
  apply forM_range
  · intro c hc block hblock
    rw [length_of_mapM_eq_ok hblock, Shape.length_coordinates, Shape.count]
  · exact hbody

/-- The innermost round stores one element. -/
theorem store_cell {start place : Nat} {value : Except Stop α} {f : List Nat → Except Stop α}
    (hplace : start = place) (hvalue : f [] = value) :
    Fills ((liftM value : Routine (Array α) α) >>= InPlace.store place) start (product [])
      ((Shape.coordinates ⟨[]⟩).mapM f) := by
  subst hplace hvalue
  have hsingle : (Shape.coordinates ⟨[]⟩).mapM f = (f [] >>= fun x => .ok [x]) :=
    List.mapM_cons ..
  rw [hsingle]
  exact read fun x _ => store start x

end Fills

end InPlace
end NetImport
