import NetImport.Proofs.Tensor.Coordinates
import NetImport.Tensor.Basic

/-!
# Row-major positions

Positions number the coordinate lists of a shape in the order in which the walk visits
them, so that what a tensor tabulates at some coordinates stands at their position.
-/

namespace NetImport

/-- A place in a row that lies among `d` rows of `n` places. -/
theorem mul_add_lt_mul {c d x n : Nat} (hc : c < d) (hx : x < n) : c * n + x < d * n := by
  calc
    c * n + x < c * n + n := Nat.add_lt_add_left hx _
    _ = (c + 1) * n := (Nat.succ_mul c n).symm
    _ ≤ d * n := Nat.mul_le_mul_right n hc

theorem mul_add_div_mod {c x n : Nat} (hx : x < n) : (c * n + x) / n = c ∧ (c * n + x) % n = x := by
  rw [Nat.add_comm, Nat.add_mul_div_right _ _ (Nat.zero_lt_of_lt hx), Nat.div_eq_of_lt hx,
    Nat.zero_add, Nat.add_mul_mod_self_right, Nat.mod_eq_of_lt hx]
  exact ⟨rfl, rfl⟩

theorem getElem?_flatMap_of_length {α : Type} {f : Nat → List α} {n : Nat}
    (hlength : ∀ i, (f i).length = n) {m i j : Nat} (hi : i < m) (hj : j < n) :
    ((List.range m).flatMap f)[i * n + j]? = (f i)[j]? := by
  induction m with
  | zero => omega
  | succ m ih =>
      have hbefore : ((List.range m).flatMap f).length = m * n := by
        simp [List.length_flatMap, hlength]
      rw [List.range_succ, List.flatMap_append, List.flatMap_singleton]
      by_cases hlast : i < m
      · rw [List.getElem?_append_left (hbefore ▸ mul_add_lt_mul hlast hj), ih hlast]
      · obtain rfl : i = m := by omega
        rw [List.getElem?_append_right (by omega), hbefore, Nat.add_sub_cancel_left]

@[simp] theorem product_nil : product [] = 1 :=
  rfl

@[simp] theorem product_cons (d : Nat) (dims : List Nat) :
    product (d :: dims) = d * product dims :=
  rfl

theorem total_cons (term : Nat) (terms : List Nat) : total (term :: terms) = term + total terms :=
  rfl

theorem product_append (dims dims' : List Nat) :
    product (dims ++ dims') = product dims * product dims' := by
  induction dims with
  | nil => simp
  | cons d dims ih => simp [ih, Nat.mul_assoc]

@[simp] theorem product_replicate_one (count : Nat) : product (List.replicate count 1) = 1 := by
  induction count with
  | zero => rfl
  | succ count ih => simp [List.replicate_succ, ih]

theorem product_ne_zero {dims : List Nat} (hdims : ∀ extent ∈ dims, extent ≠ 0) :
    product dims ≠ 0 := by
  induction dims with
  | nil => simp
  | cons d dims ih =>
      rw [List.forall_mem_cons] at hdims
      exact Nat.mul_ne_zero hdims.1 (ih hdims.2)

theorem eq_one_of_product_eq_one {dims : List Nat} (hproduct : product dims = 1) :
    ∀ extent ∈ dims, extent = 1 := by
  induction dims with
  | nil => simp
  | cons d dims ih =>
      obtain rfl : d = 1 := Nat.dvd_one.mp ⟨product dims, hproduct.symm⟩
      rw [product_cons, Nat.one_mul] at hproduct
      exact List.forall_mem_cons.mpr ⟨rfl, ih hproduct⟩

@[simp] theorem offset_nil (coords : List Nat) : offset [] coords = 0 := by
  simp [offset, strides, total]

@[simp] theorem offset_cons (d c : Nat) (dims coords : List Nat) :
    offset (d :: dims) (c :: coords) = c * product dims + offset dims coords :=
  rfl

theorem offset_four (a b c d n channel row column : Nat) :
    offset [a, b, c, d] [n, channel, row, column] =
      ((n * b + channel) * c + row) * d + column := by
  simp [Nat.add_mul, Nat.mul_assoc, Nat.add_assoc]

@[simp] theorem inBounds_cons (d c : Nat) (dims coords : List Nat) :
    inBounds (d :: dims) (c :: coords) = true ↔ c < d ∧ inBounds dims coords = true := by
  simp [inBounds]

theorem length_of_inBounds {dims coords : List Nat} (hcoords : inBounds dims coords) :
    coords.length = dims.length := by
  induction dims generalizing coords with
  | nil =>
      cases coords with
      | nil => rfl
      | cons c coords => simp [inBounds] at hcoords
  | cons d dims ih =>
      cases coords with
      | nil => simp [inBounds] at hcoords
      | cons c coords =>
          rw [inBounds_cons] at hcoords
          simp [ih hcoords.2]

theorem inBounds_append_iff {dims dims' coords coords' : List Nat}
    (hlength : coords.length = dims.length) :
    inBounds (dims ++ dims') (coords ++ coords') ↔
      inBounds dims coords ∧ inBounds dims' coords' := by
  induction dims generalizing coords with
  | nil =>
      obtain rfl := List.eq_nil_of_length_eq_zero hlength
      simp [inBounds]
  | cons d dims ih =>
      cases coords with
      | nil => simp at hlength
      | cons c coords =>
          have hrest := ih (Nat.succ.inj hlength)
          simp [hrest, and_assoc]

theorem offset_append {dims coords : List Nat} (dims' coords' : List Nat)
    (hlength : coords.length = dims.length) :
    offset (dims ++ dims') (coords ++ coords') =
      offset dims coords * product dims' + offset dims' coords' := by
  induction dims generalizing coords with
  | nil =>
      obtain rfl := List.eq_nil_of_length_eq_zero hlength
      simp
  | cons d dims ih =>
      cases coords with
      | nil => simp at hlength
      | cons c coords =>
          have hrest := ih (Nat.succ.inj hlength)
          rw [List.cons_append, List.cons_append, offset_cons, offset_cons, product_append, hrest,
            Nat.add_mul, Nat.mul_assoc, Nat.add_assoc]

/-- Axes of extent one in front do not change positions. -/
theorem offset_drop_units {units : Nat} {dims coords : List Nat}
    (hcoords : inBounds (List.replicate units 1 ++ dims) coords) :
    inBounds dims (coords.drop units) ∧
      offset (List.replicate units 1 ++ dims) coords = offset dims (coords.drop units) := by
  induction units generalizing coords with
  | zero => simpa using hcoords
  | succ units ih =>
      rw [List.replicate_succ, List.cons_append] at hcoords ⊢
      cases coords with
      | nil => simp [inBounds] at hcoords
      | cons c coords =>
          obtain ⟨hc, hrest⟩ := (inBounds_cons ..).mp hcoords
          obtain rfl : c = 0 := by omega
          simpa using ih hrest

theorem offset_lt {dims coords : List Nat} (hcoords : inBounds dims coords) :
    offset dims coords < product dims := by
  induction dims generalizing coords with
  | nil => simp
  | cons d dims ih =>
      cases coords with
      | nil => simp [inBounds] at hcoords
      | cons c coords =>
          obtain ⟨hc, hrest⟩ := (inBounds_cons ..).mp hcoords
          rw [offset_cons, product_cons]
          exact mul_add_lt_mul hc (ih hrest)

/-- Different coordinates in bounds have different positions. -/
theorem eq_of_offset_eq {dims coords coords' : List Nat} (hcoords : inBounds dims coords)
    (hcoords' : inBounds dims coords') (hoffset : offset dims coords = offset dims coords') :
    coords = coords' := by
  induction dims generalizing coords coords' with
  | nil =>
      have hlength := length_of_inBounds hcoords
      have hlength' := length_of_inBounds hcoords'
      rw [List.eq_nil_of_length_eq_zero hlength, List.eq_nil_of_length_eq_zero hlength']
  | cons d dims ih =>
      cases coords with
      | nil => simp [inBounds] at hcoords
      | cons c coords =>
          cases coords' with
          | nil => simp [inBounds] at hcoords'
          | cons c' coords' =>
              obtain ⟨-, hrest⟩ := (inBounds_cons ..).mp hcoords
              obtain ⟨-, hrest'⟩ := (inBounds_cons ..).mp hcoords'
              have hlt := offset_lt hrest
              have hlt' := offset_lt hrest'
              rw [offset_cons, offset_cons] at hoffset
              -- the positions in a row are the remainders by its length
              have hhead : c = c' := by
                have hdiv := congrArg (· / product dims) hoffset
                simpa [Nat.add_comm, Nat.add_mul_div_right _ _ (Nat.zero_lt_of_lt hlt),
                  Nat.div_eq_of_lt hlt, Nat.div_eq_of_lt hlt'] using hdiv
              subst hhead
              rw [ih hrest hrest' (Nat.add_left_cancel hoffset)]

@[simp] theorem offset_origin (dims : List Nat) : offset dims (origin dims) = 0 := by
  induction dims with
  | nil => rfl
  | cons d dims ih =>
      rw [origin, List.map_cons, offset_cons, Nat.zero_mul, Nat.zero_add]
      exact ih

/-- A step of the walk goes to the next position, or from the last one to the origin. -/
theorem offset_advance {dims coords : List Nat} (hcoords : inBounds dims coords) :
    (advance dims coords).1 = true ∧
        offset dims (advance dims coords).2 = offset dims coords + 1 ∨
      (advance dims coords).1 = false ∧ (advance dims coords).2 = origin dims ∧
        offset dims coords + 1 = product dims := by
  induction dims generalizing coords with
  | nil =>
      have hlength := length_of_inBounds hcoords
      obtain rfl := List.eq_nil_of_length_eq_zero hlength
      exact .inr ⟨rfl, rfl, rfl⟩
  | cons d dims ih =>
      cases coords with
      | nil => simp [inBounds] at hcoords
      | cons c coords =>
          obtain ⟨hc, hrest⟩ := (inBounds_cons ..).mp hcoords
          rcases hnext : advance dims coords with ⟨moved, next⟩
          have hcases := ih hrest
          rw [hnext] at hcases
          rcases hcases with ⟨rfl, hstep⟩ | ⟨rfl, rfl, hlast⟩
          · refine .inl ⟨by simp [advance, hnext], ?_⟩
            simp only [advance, hnext, offset_cons, hstep]
            omega
          · by_cases hbelow : c + 1 < d
            · refine .inl ⟨by simp [advance, hnext, hbelow], ?_⟩
              simp only [advance, hnext, if_pos hbelow, offset_cons, offset_origin,
                Nat.add_mul, Nat.one_mul]
              omega
            · obtain rfl : d = c + 1 := by omega
              refine .inr ⟨by simp [advance, hnext], by simp [advance, hnext, origin], ?_⟩
              rw [offset_cons, product_cons, Nat.add_mul, Nat.one_mul]
              omega

theorem exists_getElem?_walk {dims start : List Nat} {steps index : Nat}
    (hstart : inBounds dims start) (hsteps : offset dims start + steps ≤ product dims)
    (hindex : index < steps) :
    ∃ coords, (walk dims steps start)[index]? = some coords ∧ inBounds dims coords ∧
      offset dims coords = offset dims start + index := by
  induction steps generalizing start index with
  | zero => omega
  | succ steps ih =>
      cases index with
      | zero => exact ⟨start, rfl, hstart, rfl⟩
      | succ index =>
          rcases offset_advance hstart with ⟨-, hnext⟩ | ⟨-, -, hlast⟩
          · obtain ⟨coords, hcoords, hinside, hoffset⟩ :=
              ih (inBounds_advance hstart) (by omega) (Nat.lt_of_succ_lt_succ hindex)
            exact ⟨coords, hcoords, hinside, by omega⟩
          · omega

/-- The walk visits the coordinates of every position at that position. -/
theorem exists_getElem?_coordinates {shape : Shape} {position : Nat}
    (hposition : position < shape.count) :
    ∃ coords, shape.coordinates[position]? = some coords ∧ inBounds shape.dims coords ∧
      offset shape.dims coords = position := by
  have hstart : inBounds shape.dims (origin shape.dims) :=
    inBounds_origin (Nat.ne_of_gt (Nat.zero_lt_of_lt hposition))
  have hsteps : offset shape.dims (origin shape.dims) + shape.count ≤ product shape.dims := by
    simp [Shape.count]
  obtain ⟨coords, hcoords, hinside, hoffset⟩ := exists_getElem?_walk hstart hsteps hposition
  exact ⟨coords, hcoords, hinside, by simpa using hoffset⟩

theorem exists_offset_eq {dims : List Nat} {position : Nat}
    (hposition : position < product dims) :
    ∃ coords, inBounds dims coords ∧ offset dims coords = position := by
  obtain ⟨coords, -, hinside, hoffset⟩ := @exists_getElem?_coordinates ⟨dims⟩ position hposition
  exact ⟨coords, hinside, hoffset⟩

theorem getElem?_coordinates_offset {shape : Shape} {coords : List Nat}
    (hcoords : inBounds shape.dims coords) :
    shape.coordinates[offset shape.dims coords]? = some coords := by
  obtain ⟨found, hfound, hinside, hoffset⟩ := exists_getElem?_coordinates (offset_lt hcoords)
  rw [hfound, eq_of_offset_eq hinside hcoords hoffset]

/-- The walk over a shape passes over the shape of a row for each index of the first axis. -/
theorem Shape.coordinates_cons (d : Nat) (dims : List Nat) :
    Shape.coordinates ⟨d :: dims⟩ =
      (List.range d).flatMap fun c => (Shape.coordinates ⟨dims⟩).map (c :: ·) := by
  have hrow : ∀ c, ((Shape.coordinates ⟨dims⟩).map (c :: ·)).length = product dims := by
    intro c
    rw [List.length_map, length_coordinates, count]
  apply List.ext_getElem?
  intro position
  by_cases hposition : position < Shape.count ⟨d :: dims⟩
  · obtain ⟨coords, hcoords, hinside, hoffset⟩ := exists_getElem?_coordinates hposition
    rw [hcoords]
    cases coords with
    | nil => simp [inBounds] at hinside
    | cons c coords =>
        obtain ⟨hc, hrest⟩ := (inBounds_cons ..).mp hinside
        rw [← hoffset, offset_cons, getElem?_flatMap_of_length hrow hc (offset_lt hrest),
          List.getElem?_map, @getElem?_coordinates_offset ⟨dims⟩ _ hrest]
        rfl
  · have hlength : ((List.range d).flatMap fun c =>
        (Shape.coordinates ⟨dims⟩).map (c :: ·)).length = Shape.count ⟨d :: dims⟩ := by
      simp [List.length_flatMap, count]
    rw [List.getElem?_eq_none (by rw [length_coordinates]; omega),
      List.getElem?_eq_none (by omega)]

/-- The coordinates of a shape come in groups of equal first coordinates. -/
theorem Shape.coordinates_append (dims dims' : List Nat) :
    Shape.coordinates ⟨dims ++ dims'⟩ =
      (Shape.coordinates ⟨dims⟩).flatMap fun coords =>
        (Shape.coordinates ⟨dims'⟩).map (coords ++ ·) := by
  induction dims with
  | nil =>
      have hempty : Shape.coordinates ⟨[]⟩ = [[]] := rfl
      simp [hempty]
  | cons d dims ih =>
      simp only [List.cons_append, Shape.coordinates_cons, ih, List.map_flatMap, List.map_map,
        List.flatMap_assoc, List.flatMap_map]
      rfl

theorem Shape.map_offset_coordinates (shape : Shape) :
    shape.coordinates.map (offset shape.dims) = List.range shape.count := by
  apply List.ext_getElem?
  intro position
  by_cases hposition : position < shape.count
  · obtain ⟨coords, hcoords, hinside, hoffset⟩ := exists_getElem?_coordinates hposition
    rw [List.getElem?_map, hcoords, List.getElem?_range hposition, Option.map_some, hoffset]
  · rw [List.getElem?_eq_none (by simpa using hposition),
      List.getElem?_eq_none (by simpa using hposition)]

theorem Shape.mem_coordinates_iff {shape : Shape} {coords : List Nat} :
    coords ∈ shape.coordinates ↔ inBounds shape.dims coords := by
  constructor
  · exact Shape.inBounds_of_mem_coordinates
  · exact fun hcoords => List.mem_of_getElem? (getElem?_coordinates_offset hcoords)

namespace Tensor

theorem getElem?_data_tabulate {dtype : DType} {shape : Shape}
    (f : List Nat → dtype.Element) {coords : List Nat} (hcoords : inBounds shape.dims coords) :
    (tabulate dtype shape f).data[offset shape.dims coords]? = some (f coords) := by
  have hget : (shape.coordinates.map f).toArray[offset shape.dims coords]? = some (f coords) := by
    rw [List.getElem?_toArray, List.getElem?_map, getElem?_coordinates_offset hcoords]
    rfl
  exact hget

theorem at?_tabulate {dtype : DType} {shape : Shape} {coords : List Nat}
    (f : List Nat → dtype.Element) (hcoords : inBounds shape.dims coords) :
    (tabulate dtype shape f).at? dtype coords = some (f coords) := by
  have hindex : shape.flatIndex? coords = some (offset shape.dims coords) := if_pos hcoords
  have hown : (tabulate dtype shape f).elements? dtype = some (tabulate dtype shape f).data :=
    dif_pos rfl
  rw [at?, hown]
  change (shape.flatIndex? coords).bind _ = _
  rw [hindex]
  exact getElem?_data_tabulate f hcoords

variable {tensor : Tensor} {dims coords : List Nat}

/-- The element at coordinates in bounds stands at their position. -/
theorem at?_own (hcoords : inBounds tensor.shape.dims coords) :
    tensor.at? tensor.dtype coords = some (tensor.get (offset tensor.shape.dims coords)) := by
  have hindex : tensor.shape.flatIndex? coords = some (offset tensor.shape.dims coords) :=
    if_pos hcoords
  have hposition : offset tensor.shape.dims coords < tensor.data.size :=
    lt_of_lt_of_eq (offset_lt hcoords) tensor.size_eq.symm
  simp [at?, hindex, elements?, get, hposition]

theorem exists_at? {dtype : DType} (htype : tensor.type = ⟨dtype, ⟨dims⟩⟩)
    (hcoords : inBounds dims coords) :
    ∃ x, tensor.at? dtype coords = some x := by
  obtain ⟨own, shape, data, hsize⟩ := tensor
  obtain ⟨rfl, rfl⟩ := TensorType.mk.inj htype
  exact ⟨_, at?_own hcoords⟩

/-- The tensor with some elements has the one at their position at each coordinates. -/
theorem at?_mk {dtype : DType} {data : Array dtype.Element}
    {hsize : data.size = Shape.count ⟨dims⟩} (hcoords : inBounds dims coords) :
    at? ⟨dtype, ⟨dims⟩, data, hsize⟩ dtype coords = data[offset dims coords]? := by
  have hindex : Shape.flatIndex? ⟨dims⟩ coords = some (offset dims coords) := if_pos hcoords
  simp [at?, hindex, elements?]

/-- What stands at some coordinates is found at their position. -/
theorem getElem?_of_at? {dtype : DType} {data : Array dtype.Element}
    {hsize : data.size = Shape.count ⟨dims⟩} {x : dtype.Element}
    (hat : at? ⟨dtype, ⟨dims⟩, data, hsize⟩ dtype coords = some x) :
    data[offset dims coords]? = some x := by
  by_cases hcoords : inBounds dims coords
  · rwa [at?_mk hcoords] at hat
  · have hindex : Shape.flatIndex? ⟨dims⟩ coords = none := if_neg hcoords
    rw [at?, hindex] at hat
    cases hat

end Tensor
end NetImport
