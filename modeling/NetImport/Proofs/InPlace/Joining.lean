import NetImport.Proofs.InPlace.Concatenation
import NetImport.Proofs.Tensor.Elements

/-!
# Joining and cutting along an axis

Tensors that are joined along an axis lie one after the other there, each at the extents of
those before it.  Slices along the axis take them apart again, and slices that follow one
another are joined to the tensor that they were cut from.
-/

namespace NetImport

/-! ## Coordinates around an axis -/

section Around

variable {leading trailing outer rest coords : List Nat} {extent size start place : Nat}

theorem inBounds_around_iff (houter : outer.length = leading.length) :
    inBounds (leading ++ extent :: trailing) (outer ++ place :: rest) ↔
      inBounds leading outer ∧ place < extent ∧ inBounds trailing rest := by
  rw [inBounds_append_iff houter, inBounds_cons]

theorem exists_around (hcoords : inBounds (leading ++ extent :: trailing) coords) :
    ∃ outer place rest, coords = outer ++ place :: rest ∧ outer.length = leading.length ∧
      inBounds leading outer ∧ place < extent ∧ inBounds trailing rest := by
  have hlength : leading.length < coords.length := by
    rw [length_of_inBounds hcoords]
    simp
  have houter : (coords.take leading.length).length = leading.length :=
    List.length_take_of_le (Nat.le_of_lt hlength)
  have hsplit : coords = coords.take leading.length ++
      coords[leading.length] :: coords.drop (leading.length + 1) := by
    rw [List.getElem_cons_drop, List.take_append_drop]
  rw [hsplit, inBounds_around_iff houter] at hcoords
  exact ⟨_, _, _, hsplit, houter, hcoords⟩

theorem getD_around (houter : outer.length = leading.length) :
    (outer ++ place :: rest).getD leading.length 0 = place := by
  simp [← houter]

theorem set_around (houter : outer.length = leading.length) (place' : Nat) :
    (outer ++ place :: rest).set leading.length place' = outer ++ place' :: rest := by
  simp [← houter]

theorem set_origin_around :
    (origin (leading ++ extent :: trailing)).set leading.length start =
      origin leading ++ start :: origin trailing := by
  rw [origin, List.map_append, List.map_cons]
  exact set_around (List.length_map _) start

theorem zipWith_add_origin (hlength : coords.length = leading.length) :
    List.zipWith (· + ·) coords (origin leading) = coords := by
  apply List.ext_getElem (by simp [origin, hlength])
  intro i hi hi'
  simp [origin]

namespace Kernel

theorem boxFits_origin (dims : List Nat) : boxFits (origin dims) dims dims := by
  induction dims with
  | nil => rfl
  | cons d dims ih =>
      change (decide (0 + d ≤ d) && boxFits (origin dims) dims dims) = true
      simp [ih]

theorem boxFits_around_iff :
    boxFits (origin leading ++ start :: origin trailing) (leading ++ size :: trailing)
      (leading ++ extent :: trailing) ↔ start + size ≤ extent := by
  induction leading with
  | nil =>
      change (decide (start + size ≤ extent) && boxFits (origin trailing) trailing trailing) ↔ _
      simp [boxFits_origin]
  | cons d leading ih =>
      change (decide (0 + d ≤ d) && boxFits (origin leading ++ start :: origin trailing)
        (leading ++ size :: trailing) (leading ++ extent :: trailing)) ↔ _
      simpa using ih

theorem slicedOffset_around {dims : List Nat} (houter : outer.length = leading.length)
    (hrest : rest.length = trailing.length) :
    slicedOffset dims (origin leading ++ start :: origin trailing) (outer ++ place :: rest) =
      offset dims (outer ++ (start + place) :: rest) := by
  have hlength : outer.length = (origin leading).length := houter.trans (List.length_map _).symm
  rw [slicedOffset, List.zipWith_append hlength, List.zipWith_cons_cons,
    zipWith_add_origin houter, zipWith_add_origin hrest, Nat.add_comm place start]

end Kernel

end Around

namespace InPlace

variable {dtype : DType} {leading trailing : List Nat} {tensor : Tensor}

theorem Aligned.type_eq (haligned : Aligned dtype leading trailing tensor) :
    tensor.type = ⟨dtype, ⟨leading ++ extentAt leading.length tensor :: trailing⟩⟩ := by
  rw [Tensor.type, haligned.dtype_eq, ← haligned.dims_eq]

theorem aligned_of_type {extent : Nat}
    (htype : tensor.type = ⟨dtype, ⟨leading ++ extent :: trailing⟩⟩) :
    Aligned dtype leading trailing tensor ∧ extentAt leading.length tensor = extent := by
  obtain ⟨hdtype, hshape⟩ := TensorType.mk.inj htype
  have hdims : tensor.shape.dims = leading ++ extent :: trailing := congrArg Shape.dims hshape
  have hextent : extentAt leading.length tensor = extent := by
    rw [extentAt, hdims]
    exact getD_around rfl
  exact ⟨⟨hdtype, hextent ▸ hdims⟩, hextent⟩

end InPlace

namespace Kernel

open InPlace

variable {dtype : DType} {leading trailing : List Nat}

/-! ## Slices along an axis -/

/-- A slice holds the elements of the tensor from its start on. -/
theorem exists_slice_along {tensor window : Tensor} {extent size start : Nat}
    (htype : tensor.type = ⟨dtype, ⟨leading ++ extent :: trailing⟩⟩)
    (hwindow : window.type = ⟨dtype, ⟨leading ++ size :: trailing⟩⟩)
    (hfits : start + size ≤ extent) :
    ∃ piece, slice tensor ((origin tensor.shape.dims).set leading.length start) window =
        .ok piece ∧
      piece.type = window.type ∧
      ∀ outer place rest, inBounds leading outer → place < size → inBounds trailing rest →
        piece.at? dtype (outer ++ place :: rest) =
          tensor.at? dtype (outer ++ (start + place) :: rest) := by
  obtain ⟨own, shape, data, hsize⟩ := tensor
  obtain ⟨rfl, rfl⟩ := TensorType.mk.inj htype
  obtain ⟨hdtype, hshape⟩ := TensorType.mk.inj hwindow
  have hdims : window.shape.dims = leading ++ size :: trailing := congrArg Shape.dims hshape
  dsimp only
  rw [set_origin_around]
  refine ⟨_, slice_eq_ok hdtype (hdims ▸ boxFits_around_iff.mpr hfits), ?_, ?_⟩
  · exact Tensor.type_eq_iff.mpr ⟨hdtype.symm, rfl⟩
  · intro outer place rest houter hplace hrest
    have hlength : outer.length = leading.length := length_of_inBounds houter
    have hpiece : inBounds window.shape.dims (outer ++ place :: rest) :=
      hdims ▸ (inBounds_around_iff hlength).mpr ⟨houter, hplace, hrest⟩
    have hwhole : inBounds (leading ++ extent :: trailing) (outer ++ (start + place) :: rest) :=
      (inBounds_around_iff hlength).mpr ⟨houter, by omega, hrest⟩
    rw [Tensor.at?_tabulate _ hpiece, slicedOffset_around hlength (length_of_inBounds hrest)]
    exact (@Tensor.at?_own ⟨own, ⟨leading ++ extent :: trailing⟩, data, hsize⟩ _ hwhole).symm

/-! ## Joined tensors -/

theorem joinedElement_cons {tensor : Tensor} {outer : List Nat} {size : Nat}
    (houter : outer.length = leading.length) (hextent : extentAt leading.length tensor = size)
    (others : List Tensor) (place : Nat) (rest : List Nat) :
    joinedElement dtype leading.length (tensor :: others) (outer ++ place :: rest) =
      if place < size then
        (elementsAs dtype tensor).getD (offset tensor.shape.dims (outer ++ place :: rest))
          dtype.zero
      else joinedElement dtype leading.length others (outer ++ (place - size) :: rest) := by
  subst hextent
  rw [joinedElement, getD_around houter, set_around houter]

/-- A tensor begins at the extents of those before it. -/
theorem joinedElement_eq {tensors : List Tensor} {input : Tensor} {outer rest : List Nat}
    {index place : Nat} (hinput : tensors[index]? = some input)
    (houter : outer.length = leading.length) (hplace : place < extentAt leading.length input) :
    joinedElement dtype leading.length tensors
        (outer ++ (total ((tensors.take index).map (extentAt leading.length)) + place) :: rest) =
      (elementsAs dtype input).getD (offset input.shape.dims (outer ++ place :: rest))
        dtype.zero := by
  -- the tensors before this one are passed one by one, and the place loses their extents
  induction tensors generalizing index with
  | nil => cases hinput
  | cons tensor others ih =>
      cases index with
      | zero =>
          obtain rfl := Option.some.inj hinput
          have hzero : total (([] : List Tensor).map (extentAt leading.length)) + place = place :=
            Nat.zero_add place
          rw [List.take_zero, hzero, joinedElement_cons houter rfl, if_pos hplace]
      | succ index =>
          have hothers := ih hinput
          have hbeyond (sum : Nat) : ¬extentAt leading.length tensor + sum <
              extentAt leading.length tensor := Nat.not_lt_of_le (Nat.le_add_right ..)
          rw [List.take_succ_cons, List.map_cons, total_cons, Nat.add_assoc,
            joinedElement_cons houter rfl, if_neg (hbeyond _), Nat.add_sub_cancel_left]
          exact hothers

theorem concatShape_of_aligned {tensors : List Tensor} (hne : tensors ≠ [])
    (haligned : ∀ tensor ∈ tensors, Aligned dtype leading trailing tensor) :
    concatShape leading.length (tensors.map Tensor.shape) =
      .ok ⟨leading ++ total (tensors.map (extentAt leading.length)) :: trailing⟩ := by
  obtain ⟨first, others, rfl⟩ := List.exists_cons_of_ne_nil hne
  obtain ⟨hfirst, hothers⟩ := List.forall_mem_cons.mp haligned
  have hdims := hfirst.dims_eq
  have hrank : leading.length < first.shape.rank := by
    rw [Shape.rank, hdims]
    simp
  have hagree : ∀ shape ∈ others.map Tensor.shape,
      agreeExcept leading.length first.shape.dims shape.dims := by
    intro shape hmem
    obtain ⟨tensor, htensor, rfl⟩ := List.mem_map.mp hmem
    rw [hdims, (hothers tensor htensor).dims_eq]
    simp [agreeExcept]
  have hextents : (others.map Tensor.shape).mapM (fun shape =>
      if agreeExcept leading.length first.shape.dims shape.dims then
        (.ok (shape.dims.getD leading.length 0) : Except TensorError Nat)
      else .error (.shapeMismatch "concat" first.shape shape)) =
      .ok ((others.map Tensor.shape).map fun shape => shape.dims.getD leading.length 0) :=
    mapM_eq_ok_map fun shape hmem => if_pos (hagree shape hmem)
  rw [List.map_cons, concatShape, if_pos hrank, hextents, ok_bind, List.map_map]
  rw [hdims, getD_around rfl, set_around rfl, List.map_cons, total_cons]
  rfl

theorem concat_of_aligned {inputs : List Tensor} {output : Tensor} (hne : inputs ≠ [])
    (haligned : ∀ tensor ∈ inputs, Aligned dtype leading trailing tensor)
    (houtput : output.type =
      ⟨dtype, ⟨leading ++ total (inputs.map (extentAt leading.length)) :: trailing⟩⟩) :
    concat inputs leading.length output =
      .ok (Tensor.tabulate dtype
        ⟨leading ++ total (inputs.map (extentAt leading.length)) :: trailing⟩
        (joinedElement dtype leading.length inputs)) := by
  have hshape := concatShape_of_aligned hne haligned
  obtain ⟨first, others, rfl⟩ := List.exists_cons_of_ne_nil hne
  obtain ⟨hdtype, hexpected⟩ := TensorType.mk.inj houtput
  have hfirst : first.dtype = dtype := (haligned first (List.mem_cons_self ..)).dtype_eq
  have hall : ∀ tensor ∈ first :: others, first.dtype = tensor.dtype := fun tensor hmem =>
    hfirst.trans (haligned tensor hmem).dtype_eq.symm
  rw [← hexpected] at hshape ⊢
  rw [concat_eq_ok (hdtype.trans hfirst.symm) hall hshape, hfirst]

theorem aligned_of_concat {inputs : List Tensor} {output result : Tensor} {axis : Nat}
    (hconcat : concat inputs axis output = .ok result) :
    ∃ leading trailing, leading.length = axis ∧ inputs ≠ [] ∧
      (∀ tensor ∈ inputs, Aligned output.dtype leading trailing tensor) ∧
      output.type = ⟨output.dtype,
        ⟨leading ++ total (inputs.map (extentAt leading.length)) :: trailing⟩⟩ := by
  obtain ⟨hne, hdtype, hshape⟩ :=
    (concat_contract inputs axis).accepted_iff.mp ⟨result, hconcat⟩
  obtain ⟨leading, trailing, rfl, hdims, hexpected⟩ := exists_layout hshape
  refine ⟨leading, trailing, rfl, hne, ?_, ?_⟩
  · intro tensor hmem
    exact ⟨hdtype tensor hmem, hdims tensor.shape (List.mem_map_of_mem hmem)⟩
  · rw [List.map_map] at hexpected
    exact congrArg (TensorType.mk output.dtype) (congrArg Shape.mk hexpected)

/-- Where one of the joined tensors begins along the axis. -/
def startAt (axis : Nat) (inputs : List Tensor) (index : Nat) : Nat :=
  total ((inputs.take index).map (extentAt axis))

theorem startAt_add_extentAt_le {axis index : Nat} {inputs : List Tensor} {input : Tensor}
    (hinput : inputs[index]? = some input) :
    startAt axis inputs index + extentAt axis input ≤ total (inputs.map (extentAt axis)) := by
  induction inputs generalizing index with
  | nil => cases hinput
  | cons first others ih =>
      cases index with
      | zero =>
          obtain rfl := Option.some.inj hinput
          rw [List.map_cons, total_cons, startAt, List.take_zero]
          exact (Nat.zero_add _).symm ▸ Nat.le_add_right ..
      | succ index =>
          have hothers := ih hinput
          rw [startAt] at hothers ⊢
          rw [List.take_succ_cons, List.map_cons, List.map_cons, total_cons, total_cons,
            Nat.add_assoc]
          exact Nat.add_le_add_left hothers _

section Joined

variable {inputs : List Tensor} {input : Tensor} {index : Nat}
  (haligned : ∀ tensor ∈ inputs, Aligned dtype leading trailing tensor)
  (hinput : inputs[index]? = some input)
include haligned hinput

theorem at?_joined {outer rest : List Nat} {place : Nat} (houter : inBounds leading outer)
    (hplace : place < extentAt leading.length input) (hrest : inBounds trailing rest) :
    ∃ x, (Tensor.tabulate dtype
        ⟨leading ++ total (inputs.map (extentAt leading.length)) :: trailing⟩
        (joinedElement dtype leading.length inputs)).at? dtype
          (outer ++ (startAt leading.length inputs index + place) :: rest) = some x ∧
      input.at? dtype (outer ++ place :: rest) = some x := by
  have hlength : outer.length = leading.length := length_of_inBounds houter
  have hbelow := @startAt_add_extentAt_le leading.length _ _ _ hinput
  have hwhole : inBounds (leading ++ total (inputs.map (extentAt leading.length)) :: trailing)
      (outer ++ (startAt leading.length inputs index + place) :: rest) :=
    (inBounds_around_iff hlength).mpr ⟨houter, by omega, hrest⟩
  obtain ⟨hdtype, hdims⟩ := haligned input (List.mem_of_getElem? hinput)
  have hpart : inBounds input.shape.dims (outer ++ place :: rest) :=
    hdims ▸ (inBounds_around_iff hlength).mpr ⟨houter, hplace, hrest⟩
  refine ⟨_, Tensor.at?_tabulate _ hwhole, ?_⟩
  rw [Tensor.at?_eq_some hdtype hpart]
  exact congrArg some (joinedElement_eq hinput hlength hplace).symm

theorem slice_joined {window : Tensor} (hwindow : window.type = input.type) :
    slice (Tensor.tabulate dtype
        ⟨leading ++ total (inputs.map (extentAt leading.length)) :: trailing⟩
        (joinedElement dtype leading.length inputs))
      ((origin (leading ++ total (inputs.map (extentAt leading.length)) :: trailing)).set
        leading.length (startAt leading.length inputs index)) window = .ok input := by
  obtain ⟨hdtype, hdims⟩ := haligned input (List.mem_of_getElem? hinput)
  have htype := (haligned input (List.mem_of_getElem? hinput)).type_eq
  let joined := Tensor.tabulate dtype
    ⟨leading ++ total (inputs.map (extentAt leading.length)) :: trailing⟩
    (joinedElement dtype leading.length inputs)
  obtain ⟨piece, hslice, hpiece, hcells⟩ := @exists_slice_along dtype _ _ joined _ _ _ _ rfl
    (hwindow.trans htype) (startAt_add_extentAt_le hinput)
  rw [hwindow] at hpiece
  have hsame : piece = input := by
    apply Tensor.eq_of_at?_eq hpiece
    intro coords hcoords
    obtain ⟨hpieceDType, hpieceShape⟩ := Tensor.type_eq_iff.mp hpiece
    rw [hpieceShape, hdims] at hcoords
    rw [hpieceDType, hdtype]
    obtain ⟨outer, place, rest, rfl, -, houter, hplace, hrest⟩ := exists_around hcoords
    obtain ⟨x, hjoined, hx⟩ := at?_joined haligned hinput houter hplace hrest
    rw [hcells outer place rest houter hplace hrest, hjoined, hx]
  rw [← hsame]
  exact hslice

end Joined

theorem slice_of_concat {inputs : List Tensor} {axis : Nat} {output result : Tensor}
    (hconcat : concat inputs axis output = .ok result) {index : Nat} {input : Tensor}
    (hinput : inputs[index]? = some input) :
    (∀ coords place, inBounds result.shape.dims coords → coords[axis]? = some place →
      startAt axis inputs index ≤ place →
      place < startAt axis inputs index + extentAt axis input →
      ∃ x, result.at? result.dtype coords = some x ∧
        input.at? result.dtype (coords.set axis (place - startAt axis inputs index)) = some x) ∧
    ∀ window : Tensor, window.type = input.type →
      slice result ((origin result.shape.dims).set axis (startAt axis inputs index))
        window = .ok input := by
  obtain ⟨leading, trailing, rfl, hne, haligned, houtput⟩ := aligned_of_concat hconcat
  obtain rfl := Except.ok.inj ((concat_of_aligned hne haligned houtput).symm.trans hconcat)
  constructor
  · intro coords place hcoords hplace hlow hhigh
    obtain ⟨outer, found, rest, rfl, hlength, houter, -, hrest⟩ := exists_around hcoords
    have hfound : found = place := by simpa [← hlength] using hplace
    subst hfound
    obtain ⟨x, hx, hown⟩ := at?_joined haligned hinput houter
      (show found - startAt leading.length inputs index < _ by omega) hrest
    rw [Nat.add_sub_cancel' hlow] at hx
    rw [set_around hlength]
    exact ⟨x, hx, hown⟩
  · intro window hwindow
    exact slice_joined haligned hinput hwindow

/-! ## Consecutive slices -/

/-- The slices of a tensor from a start on, one for each of the extents along the axis. -/
def slicesAlong (tensor : Tensor) (axis : Nat) : Nat → List Nat → Except TensorError (List Tensor)
  | _, [] => .ok []
  | start, extent :: extents => do
      let piece ← slice tensor ((origin tensor.shape.dims).set axis start)
        (Tensor.zeros tensor.dtype ⟨tensor.shape.dims.set axis extent⟩)
      return piece :: (← slicesAlong tensor axis (start + extent) extents)

theorem exists_slicesAlong {tensor : Tensor} {extent start : Nat} {extents : List Nat}
    (htype : tensor.type = ⟨dtype, ⟨leading ++ extent :: trailing⟩⟩)
    (hextents : start + total extents ≤ extent) :
    ∃ pieces, slicesAlong tensor leading.length start extents = .ok pieces ∧
      pieces.map (extentAt leading.length) = extents ∧
      (∀ piece ∈ pieces, Aligned dtype leading trailing piece) ∧
      ∀ outer place rest, inBounds leading outer → place < total extents →
        inBounds trailing rest →
        tensor.at? dtype (outer ++ (start + place) :: rest) =
          some (joinedElement dtype leading.length pieces (outer ++ place :: rest)) := by
  -- each piece moves the start on, and what is left of the place is looked for in the others
  induction extents generalizing start with
  | nil => exact ⟨[], rfl, rfl, by simp, fun _ _ _ _ hplace => absurd hplace (Nat.not_lt_zero _)⟩
  | cons size extents ih =>
      rw [total_cons] at hextents
      obtain ⟨hdtype, hshape⟩ := TensorType.mk.inj htype
      have hdims : tensor.shape.dims.set leading.length size = leading ++ size :: trailing := by
        rw [hshape]
        exact set_around rfl size
      have hwindow : (Tensor.zeros tensor.dtype ⟨tensor.shape.dims.set leading.length size⟩).type =
          ⟨dtype, ⟨leading ++ size :: trailing⟩⟩ := by
        rw [hdims, hdtype]
        rfl
      have hsize : start + size ≤ extent := by omega
      obtain ⟨piece, hpiece, hpieceType, hcells⟩ := exists_slice_along htype hwindow hsize
      obtain ⟨pieces, hpieces, hmap, haligned, hothers⟩ := @ih (start + size) (by omega)
      obtain ⟨hfirst, hextent⟩ := aligned_of_type (hpieceType.trans hwindow)
      refine ⟨piece :: pieces, ?_, ?_, ?_, ?_⟩
      · rw [slicesAlong, hpiece, ok_bind, hpieces]
        rfl
      · rw [List.map_cons, hextent, hmap]
      · exact List.forall_mem_cons.mpr ⟨hfirst, haligned⟩
      · intro outer place rest houter hplace hrest
        have hlength : outer.length = leading.length := length_of_inBounds houter
        rw [total_cons] at hplace
        rw [joinedElement_cons hlength hextent]
        by_cases hbefore : place < size
        · have hinside : inBounds piece.shape.dims (outer ++ place :: rest) := by
            rw [hfirst.dims_eq, hextent]
            exact (inBounds_around_iff hlength).mpr ⟨houter, hbefore, hrest⟩
          rw [if_pos hbefore, ← hcells outer place rest houter hbefore hrest]
          exact Tensor.at?_eq_some hfirst.dtype_eq hinside
        · have hlater := hothers outer (place - size) rest houter (by omega) hrest
          have hsum : start + size + (place - size) = start + place := by omega
          rw [if_neg hbefore, ← hlater, hsum]

theorem concat_slicesAlong {tensor output : Tensor} {axis : Nat} {extents : List Nat}
    (htype : output.type = tensor.type) (hne : extents ≠ [])
    (hextents : tensor.shape.dims[axis]? = some (total extents)) :
    ∃ pieces, slicesAlong tensor axis 0 extents = .ok pieces ∧
      concat pieces axis output = .ok tensor := by
  obtain ⟨haxis, hextent⟩ := List.getElem?_eq_some_iff.mp hextents
  let leading := tensor.shape.dims.take axis
  let trailing := tensor.shape.dims.drop (axis + 1)
  have hleading : leading.length = axis := List.length_take_of_le (Nat.le_of_lt haxis)
  have hdims : tensor.shape.dims = leading ++ total extents :: trailing := by
    rw [← hextent, List.getElem_cons_drop, List.take_append_drop]
  have hown : tensor.type = ⟨tensor.dtype, ⟨leading ++ total extents :: trailing⟩⟩ :=
    congrArg (TensorType.mk tensor.dtype) (congrArg Shape.mk hdims)
  obtain ⟨pieces, hpieces, hmap, haligned, hcells⟩ :=
    exists_slicesAlong hown (Nat.le_of_eq (Nat.zero_add _))
  rw [hleading] at hpieces
  have hsome : pieces ≠ [] := by
    rintro rfl
    exact hne hmap.symm
  have houtput : output.type = ⟨tensor.dtype,
      ⟨leading ++ total (pieces.map (extentAt leading.length)) :: trailing⟩⟩ := by
    rw [hmap, htype, hown]
  have hconcat := concat_of_aligned hsome haligned houtput
  rw [hmap, hleading] at hconcat
  refine ⟨pieces, hpieces, hconcat.trans (congrArg Except.ok ?_)⟩
  apply Tensor.eq_of_at?_eq
  · rw [hown]
    rfl
  · intro coords hcoords
    obtain ⟨outer, place, rest, rfl, -, houter, hplace, hrest⟩ := exists_around hcoords
    have hcell := hcells outer place rest houter hplace hrest
    rw [Nat.zero_add, hleading] at hcell
    exact (Tensor.at?_tabulate _ hcoords).trans hcell.symm

end Kernel
end NetImport
