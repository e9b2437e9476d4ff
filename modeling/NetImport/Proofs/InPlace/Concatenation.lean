import NetImport.Proofs.InPlace.Rearrangement

/-!
# The concatenation routine

The result has the extents of the tensors before and after the axis, and each of its rows
takes a segment from every tensor.  The routine copies the segments of one tensor into all
rows before it comes to the next tensor, so that a row is finished by the last one only.
-/

namespace NetImport
namespace InPlace

variable {α : Type}

/-! ## Shapes -/

/-- The extents agree off the axis. -/
def agreeExcept (axis : Nat) (lhs rhs : List Nat) : Bool :=
  (lhs.zip rhs).zipIdx.all fun pair => pair.2 == axis || pair.1.1 == pair.1.2

/-- Adds the extent of a shape along the axis to those of the shapes before. -/
def addExtent (axis : Nat) (first : Shape) (dims : List Nat) (shape : Shape) :
    Except Stop (List Nat) :=
  if shape.rank = first.rank ∧ agreeExcept axis shape.dims first.dims then do
    let extent ← entry shape.dims axis
    let sum ← entry dims axis
    return dims.set axis (sum + extent)
  else .error (.refused (.shapeMismatch "concat" first shape))

def concatShape (axis : Nat) : List Shape → Except Stop Shape
  | [] => .error (.refused (.invalidArgument "concat" "no inputs"))
  | first :: others =>
      if axis ≥ first.rank then
        .error (.refused
          (.invalidArgument "concat" s!"axis {axis} out of range for {first.text}"))
      else do
        let dims ← others.foldlM (addExtent axis first) first.dims
        return ⟨dims⟩

theorem agreeExcept_iff {axis : Nat} {shape first : Shape} :
    shape.rank = first.rank ∧ agreeExcept axis shape.dims first.dims ↔
      Kernel.agreeExcept axis first.dims shape.dims := by
  simp only [Kernel.agreeExcept, Bool.and_eq_true, beq_iff_eq, agreeExcept, List.all_eq_true,
    Bool.or_eq_true, Shape.rank]
  constructor
  · rintro ⟨hrank, hagree⟩
    refine ⟨hrank.symm, List.ext_getElem? fun i => ?_⟩
    by_cases hi : i < shape.dims.length
    · have hi' : i < first.dims.length := lt_of_lt_of_eq hi hrank
      have hpair := hagree ((shape.dims[i], first.dims[i]), i)
        (List.mem_zipIdx_iff_getElem?.mpr (List.getElem?_zip_eq_some.mpr
          ⟨List.getElem?_eq_getElem hi, List.getElem?_eq_getElem hi'⟩))
      rcases hpair with rfl | (hequal : shape.dims[i] = first.dims[i])
      · rw [List.getElem?_set_self hi, List.getElem?_set_self hi']
      · simp only [List.getElem?_set, hrank, List.getElem?_eq_getElem hi,
          List.getElem?_eq_getElem hi', hequal]
    · simp [hrank ▸ hi, hi]
  · rintro ⟨hrank, hequal⟩
    refine ⟨hrank.symm, ?_⟩
    rintro ⟨⟨a, b⟩, i⟩ hpair
    obtain ⟨ha, hb⟩ := List.getElem?_zip_eq_some.mp (List.mem_zipIdx_iff_getElem?.mp hpair)
    by_cases hi : i = axis
    · exact .inl hi
    · have hplace := congrArg (·[i]?) hequal
      simp only [List.getElem?_set_ne (Ne.symm hi), ha, hb] at hplace
      exact .inr (Option.some.inj hplace.symm)

theorem foldlM_addExtent {axis : Nat} {first : Shape} (haxis : axis < first.rank)
    (others : List Shape) (sum : Nat) :
    others.foldlM (addExtent axis first) (first.dims.set axis sum) =
      liftM (do
        let extents ← others.mapM fun shape =>
          if Kernel.agreeExcept axis first.dims shape.dims then .ok (shape.dims.getD axis 0)
          else .error (.shapeMismatch "concat" first shape)
        return first.dims.set axis (sum + total extents) : Except TensorError (List Nat)) := by
  induction others generalizing sum with
  | nil => rfl
  | cons shape others ih =>
      rw [List.foldlM_cons, List.mapM_cons]
      by_cases hagrees : shape.rank = first.rank ∧ agreeExcept axis shape.dims first.dims
      · have haxis' : axis < shape.dims.length := lt_of_lt_of_eq haxis hagrees.1.symm
        have hextent : entry shape.dims axis = .ok (shape.dims.getD axis 0) :=
          entry_eq_ok (by simp [haxis'])
        have hsum : entry (first.dims.set axis sum) axis = .ok sum :=
          entry_eq_ok (List.getElem?_set_self haxis)
        rw [addExtent, if_pos hagrees, if_pos (agreeExcept_iff.mp hagrees), hextent, hsum]
        simp only [ok_bind, pure_bind, List.set_set, ih]
        cases others.mapM fun shape : Shape =>
          if Kernel.agreeExcept axis first.dims shape.dims then
            (.ok (shape.dims.getD axis 0) : Except TensorError Nat)
          else .error (.shapeMismatch "concat" first shape) with
        | error reason => rfl
        | ok extents => simp [total_cons, Nat.add_assoc]
      · rw [addExtent, if_neg hagrees, if_neg fun hkernel => hagrees (agreeExcept_iff.mpr hkernel)]
        rfl

theorem concatShape_eq (axis : Nat) (shapes : List Shape) :
    concatShape axis shapes = liftM (Kernel.concatShape axis shapes) := by
  cases shapes with
  | nil => rfl
  | cons first others =>
      rw [concatShape, Kernel.concatShape]
      by_cases haxis : axis < first.rank
      · have hstart : first.dims = first.dims.set axis (first.dims.getD axis 0) := by
          have hinside : axis < first.dims.length := haxis
          rw [List.getD_eq_getElem?_getD, List.getElem?_eq_getElem hinside, Option.getD_some,
            List.set_getElem_self]
        rw [if_neg (Nat.not_le_of_lt haxis), if_pos haxis]
        have hfold := foldlM_addExtent haxis others (first.dims.getD axis 0)
        rw [← hstart] at hfold
        rw [hfold]
        cases others.mapM fun shape : Shape =>
          if Kernel.agreeExcept axis first.dims shape.dims then
            (.ok (shape.dims.getD axis 0) : Except TensorError Nat)
          else .error (.shapeMismatch "concat" first shape) <;> rfl
      · rw [if_pos (Nat.le_of_not_lt haxis), if_neg haxis]
        rfl

/-! ## Layouts -/

theorem eq_of_agreeExcept {axis : Nat} {first dims : List Nat} (haxis : axis < first.length)
    (hagree : Kernel.agreeExcept axis first dims) :
    dims = first.take axis ++ dims.getD axis 0 :: first.drop (axis + 1) := by
  simp only [Kernel.agreeExcept, Bool.and_eq_true, beq_iff_eq] at hagree
  obtain ⟨hlength, hequal⟩ := hagree
  have haxis' : axis < dims.length := hlength ▸ haxis
  have hleading : first.take axis = dims.take axis := by
    have htake := congrArg (List.take axis) hequal
    simpa only [List.take_set_of_le (Nat.le_refl axis)] using htake
  have htrailing : first.drop (axis + 1) = dims.drop (axis + 1) := by
    have hdrop := congrArg (List.drop (axis + 1)) hequal
    simpa only [List.drop_set_of_lt (Nat.lt_succ_self axis)] using hdrop
  rw [hleading, htrailing, List.getD_eq_getElem?_getD, List.getElem?_eq_getElem haxis',
    Option.getD_some, List.getElem_cons_drop, List.take_append_drop]

/-- The extents along the axis of shapes that agree with the first one off the axis. -/
theorem extents_of_mapM {axis : Nat} {first : Shape} {others : List Shape} {extents : List Nat}
    (hextents : others.mapM (fun shape : Shape =>
      if Kernel.agreeExcept axis first.dims shape.dims then
        (.ok (shape.dims.getD axis 0) : Except TensorError Nat)
      else .error (.shapeMismatch "concat" first shape)) = .ok extents) :
    (∀ shape ∈ others, Kernel.agreeExcept axis first.dims shape.dims) ∧
      extents = others.map fun shape => shape.dims.getD axis 0 := by
  have hagree : ∀ shape ∈ others, Kernel.agreeExcept axis first.dims shape.dims := by
    intro shape hmem
    obtain ⟨extent, hextent⟩ := exists_mapM_eq_ok_iff.mp ⟨extents, hextents⟩ shape hmem
    by_contra hdiffers
    rw [if_neg hdiffers] at hextent
    cases hextent
  rw [mapM_eq_ok_map fun shape hmem => if_pos (hagree shape hmem)] at hextents
  exact ⟨hagree, (Except.ok.inj hextents).symm⟩

/-- The joined shapes have the extents before and after the axis in common. -/
theorem exists_layout {axis : Nat} {shapes : List Shape} {expected : Shape}
    (hshape : Kernel.concatShape axis shapes = .ok expected) :
    ∃ leading trailing, leading.length = axis ∧
      (∀ shape ∈ shapes, shape.dims = leading ++ shape.dims.getD axis 0 :: trailing) ∧
      expected.dims =
        leading ++ total (shapes.map fun shape => shape.dims.getD axis 0) :: trailing := by
  cases shapes with
  | nil => cases hshape
  | cons first others =>
      by_cases haxis : axis < first.rank
      · rw [Kernel.concatShape, if_pos haxis] at hshape
        obtain ⟨extents, hextents, hexpected⟩ := bind_eq_ok_iff.mp hshape
        obtain ⟨hagree, rfl⟩ := extents_of_mapM hextents
        have hsame : Kernel.agreeExcept axis first.dims first.dims := by
          simp [Kernel.agreeExcept]
        refine ⟨first.dims.take axis, first.dims.drop (axis + 1), ?_, ?_, ?_⟩
        · exact List.length_take_of_le (Nat.le_of_lt haxis)
        · intro shape hmem
          rcases List.mem_cons.mp hmem with rfl | hmem
          · exact eq_of_agreeExcept haxis hsame
          · exact eq_of_agreeExcept haxis (hagree shape hmem)
        · rw [← pure_eq_ok_iff.mp hexpected, List.map_cons, total_cons]
          exact List.set_eq_take_append_cons_drop ▸ if_pos haxis
      · rw [Kernel.concatShape, if_neg haxis] at hshape
        cases hshape

/-! ## Rows of the result -/

abbrev extentAt (axis : Nat) (tensor : Tensor) : Nat := tensor.shape.dims.getD axis 0

/-- A tensor of the common type, with the common extents before and after the axis. -/
structure Aligned (dtype : DType) (leading trailing : List Nat) (tensor : Tensor) : Prop where
  dtype_eq : tensor.dtype = dtype
  dims_eq : tensor.shape.dims = leading ++ extentAt leading.length tensor :: trailing

/-- What a tensor contributes to one row of the result. -/
def segment (dtype : DType) (leading trailing : List Nat) (tensor : Tensor) (row : Nat) :
    List dtype.Element :=
  let width := extentAt leading.length tensor * product trailing
  ((Kernel.elementsAs dtype tensor).extract (row * width) ((row + 1) * width)).toList

variable {dtype : DType} {leading trailing : List Nat}

namespace Aligned

variable {tensor : Tensor} (haligned : Aligned dtype leading trailing tensor)
include haligned

theorem size_eq : (Kernel.elementsAs dtype tensor).size =
    product leading * (extentAt leading.length tensor * product trailing) := by
  obtain ⟨rfl, hdims⟩ := haligned
  rw [Kernel.elementsAs, Tensor.elements?_own, Option.getD_some, tensor.size_eq, Shape.count,
    hdims, product_append, product_cons]

theorem row_le {row : Nat} (hrow : row < product leading) :
    (row + 1) * (extentAt leading.length tensor * product trailing) ≤
      (Kernel.elementsAs dtype tensor).size :=
  haligned.size_eq ▸ Nat.mul_le_mul_right _ hrow

theorem length_segment {row : Nat} (hrow : row < product leading) :
    (segment dtype leading trailing tensor row).length =
      extentAt leading.length tensor * product trailing := by
  rw [segment, Array.length_toList, size_extract_row (haligned.row_le hrow)]

theorem typed_eq : typed "concat" dtype tensor = .ok (Kernel.elementsAs dtype tensor) := by
  obtain ⟨rfl, hdims⟩ := haligned
  exact typed_eq_ok (by simp [Kernel.elementsAs])

theorem entry_eq : entry tensor.shape.dims leading.length = .ok (extentAt leading.length tensor) :=
  entry_eq_ok (by rw [haligned.dims_eq]; simp)

theorem segment_eq {coords : List Nat} (hcoords : inBounds leading coords) :
    segment dtype leading trailing tensor (offset leading coords) =
      (List.range (extentAt leading.length tensor)).flatMap fun place =>
        (Shape.coordinates ⟨trailing⟩).map fun rest =>
          (Kernel.elementsAs dtype tensor).getD
            (offset tensor.shape.dims (coords ++ place :: rest)) dtype.zero := by
  have hinside := haligned.row_le (offset_lt hcoords)
  have hdims := haligned.dims_eq
  rw [segment]
  generalize extentAt leading.length tensor = extent at hinside hdims ⊢
  have hposition : ∀ rest, offset (leading ++ extent :: trailing) (coords ++ rest) =
      offset leading coords * (extent * product trailing) + offset (extent :: trailing) rest := by
    intro rest
    rw [offset_append _ _ (length_of_inBounds hcoords), product_cons]
  have hrange := Shape.map_offset_coordinates ⟨extent :: trailing⟩
  rw [Shape.count, product_cons] at hrange
  rw [Nat.succ_mul] at hinside
  simp only [Nat.succ_mul]
  rw [toList_extract dtype.zero hinside, ← hrange, hdims, List.map_map, Shape.coordinates_cons,
    List.map_flatMap]
  simp only [List.map_map, Function.comp_def, hposition]

end Aligned

section Rows

variable {tensors : List Tensor}
  (haligned : ∀ tensor ∈ tensors, Aligned dtype leading trailing tensor)
include haligned

/-- A row of the result is the tensors' segments, one after the other. -/
theorem joinedRow_eq {coords : List Nat} (hcoords : inBounds leading coords) :
    ((List.range (total (tensors.map (extentAt leading.length)))).flatMap fun place =>
      (Shape.coordinates ⟨trailing⟩).map fun rest =>
        Kernel.joinedElement dtype leading.length tensors (coords ++ place :: rest)) =
      tensors.flatMap fun tensor =>
        segment dtype leading trailing tensor (offset leading coords) := by
  induction tensors with
  | nil => rfl
  | cons tensor others ih =>
      rw [List.forall_mem_cons] at haligned
      have hlength : coords.length = leading.length := length_of_inBounds hcoords
      have hplace : ∀ place rest, (coords ++ place :: rest).getD leading.length 0 = place := by
        intro place rest
        simp [← hlength]
      have hset : ∀ place place' rest, (coords ++ place :: rest).set leading.length place' =
          coords ++ place' :: rest := by
        intro place place' rest
        simp [← hlength]
      rw [List.flatMap_cons, haligned.1.segment_eq hcoords, ← ih haligned.2, List.map_cons,
        total_cons, List.range_add, List.flatMap_append, List.flatMap_map]
      congr 1
      · apply List.flatMap_congr
        intro place hmem
        have hbelow := List.mem_range.mp hmem
        simp only [Kernel.joinedElement, hplace, if_pos hbelow]
      · have hbeyond : ∀ extent place : Nat, ¬extent + place < extent := by omega
        simp only [Kernel.joinedElement, hplace, hset, hbeyond, if_false, Nat.add_sub_cancel_left]

theorem joined_eq :
    (Shape.coordinates
        ⟨leading ++ total (tensors.map (extentAt leading.length)) :: trailing⟩).map
        (Kernel.joinedElement dtype leading.length tensors) =
      (List.range (product leading)).flatMap fun row =>
        tensors.flatMap fun tensor => segment dtype leading trailing tensor row := by
  have hrows := Shape.map_offset_coordinates ⟨leading⟩
  rw [Shape.count] at hrows
  rw [← hrows, List.flatMap_map, Shape.coordinates_append, List.map_flatMap]
  apply List.flatMap_congr
  intro coords hmem
  rw [← joinedRow_eq haligned (Shape.mem_coordinates_iff.mp hmem), Shape.coordinates_cons]
  simp only [List.map_flatMap, List.map_map]
  rfl

end Rows

/-! ## Routine -/

/-- Copies the rows of a source into columns of the rows of a buffer. -/
def copyColumns (source : Array α) (rows width column chunk : Nat) : Routine (Array α) Unit :=
  (List.range rows).forM fun row => do
    let part ← cut source (row * chunk) ((row + 1) * chunk)
    overwrite (row * width + column) (row * width + column + chunk) part

/-- Copies tensor after tensor, from a column of the result on. -/
def join (dtype : DType) (axis rows width inner : Nat) :
    Nat → List Tensor → Routine (Array dtype.Element) Unit
  | _, [] => return ()
  | column, tensor :: others => do
      let source ← typed "concat" dtype tensor
      let extent ← entry tensor.shape.dims axis
      copyColumns source rows width column (extent * inner)
      join dtype axis rows width inner (column + extent * inner) others

def initial (entries : List Nat) (stop : Nat) : Except Stop (List Nat) :=
  if stop ≤ entries.length then .ok (entries.take stop) else .error .fault

def requireDType (dtype : DType) (tensors : List Tensor) : Except TensorError Unit :=
  tensors.forM fun tensor => Kernel.requireSameDType "concat" dtype tensor.dtype

def concat (inputs : List Tensor) (axis : Nat) : Routine Storage Unit := do
  let output ← get
  match inputs with
  | [] => refuse (.invalidArgument "concat" "no inputs")
  | first :: _ => do
      Kernel.requireSameDType "concat" first.dtype output.dtype
      requireDType first.dtype inputs
      let expected ← concatShape axis (inputs.map Tensor.shape)
      Kernel.requireShape "concat (output)" expected output.shape
      let leading ← initial output.shape.dims axis
      let trailing ← suffix output.shape.dims (axis + 1)
      let extent ← entry output.shape.dims axis
      let inner := product trailing
      onTyped "concat" first.dtype
        (join first.dtype axis (product leading) (extent * inner) inner 0 inputs)

/-- The part of each row before the column and the part after the chunk stay as they are. -/
theorem rewrites_copyColumns {source : Array α} {rows width column chunk : Nat}
    {before old after : Nat → List α} (hsource : source.size = rows * chunk)
    (hbefore : ∀ row < rows, (before row).length = column)
    (hold : ∀ row < rows, (old row).length = chunk)
    (hwidth : ∀ row < rows, column + chunk + (after row).length = width) :
    Rewrites (copyColumns source rows width column chunk) 0
      ((List.range rows).flatMap fun row => before row ++ old row ++ after row)
      (.ok ((List.range rows).flatMap fun row =>
        before row ++ (source.extract (row * chunk) ((row + 1) * chunk)).toList ++ after row)) := by
  have hinside : ∀ row < rows, (row + 1) * chunk ≤ source.size :=
    fun row hrow => hsource ▸ Nat.mul_le_mul_right chunk hrow
  apply Rewrites.forM_range_ok width
  · intro row hrow
    have htotal := hwidth row hrow
    rw [List.length_append, List.length_append, hbefore row hrow, hold row hrow, htotal]
  · intro row hrow
    have htotal := hwidth row hrow
    rw [List.length_append, List.length_append, hbefore row hrow, Array.length_toList,
      size_extract_row (hinside row hrow), htotal]
  · intro row hrow
    apply Rewrites.read_ok
      (cut_eq_ok (Nat.mul_le_mul_right chunk (Nat.le_succ row)) (hinside row hrow))
    apply Rewrites.within
    rw [Nat.zero_add, hbefore row hrow]
    apply rewrites_overwrite
    · rw [hold row hrow]
    · rw [size_extract_row (hinside row hrow), hold row hrow]

section Join

variable {tensors : List Tensor}
  (haligned : ∀ tensor ∈ tensors, Aligned dtype leading trailing tensor)
include haligned

/-- The tensors from a column on fill the rest of each row. -/
theorem rewrites_join {width column : Nat} {done rest : Nat → List dtype.Element}
    (hdone : ∀ row < product leading, (done row).length = column)
    (hrest : ∀ row < product leading, (rest row).length =
      total (tensors.map (extentAt leading.length)) * product trailing)
    (hwidth : column + total (tensors.map (extentAt leading.length)) * product trailing = width) :
    Rewrites (join dtype leading.length (product leading) width (product trailing) column tensors)
      0 ((List.range (product leading)).flatMap fun row => done row ++ rest row)
      (.ok ((List.range (product leading)).flatMap fun row =>
        done row ++ tensors.flatMap fun tensor => segment dtype leading trailing tensor row)) := by
  induction tensors generalizing column done rest with
  | nil =>
      have hempty : ((List.range (product leading)).flatMap fun row => done row ++ rest row) =
          (List.range (product leading)).flatMap fun row => done row ++ [] := by
        apply List.flatMap_congr
        intro row hmem
        have hnone := hrest row (List.mem_range.mp hmem)
        rw [List.eq_nil_of_length_eq_zero (hnone.trans (Nat.zero_mul _))]
      rw [hempty]
      exact Rewrites.pure
  | cons tensor others ih =>
      rw [List.forall_mem_cons] at haligned
      simp only [List.map_cons, total_cons, Nat.add_mul] at hrest hwidth
      let chunk := extentAt leading.length tensor * product trailing
      have hsplit : ((List.range (product leading)).flatMap fun row => done row ++ rest row) =
          (List.range (product leading)).flatMap fun row =>
            done row ++ (rest row).take chunk ++ (rest row).drop chunk := by
        simp only [List.append_assoc, List.take_append_drop]
      have hlast : ∀ row < product leading, ((rest row).drop chunk).length =
          total (others.map (extentAt leading.length)) * product trailing := by
        intro row hrow
        rw [List.length_drop, hrest row hrow, Nat.add_sub_cancel_left]
      rw [join, hsplit]
      apply Rewrites.read_ok (congrArg liftM haligned.1.typed_eq)
      apply Rewrites.read_ok haligned.1.entry_eq
      apply Rewrites.bind
      · apply rewrites_copyColumns haligned.1.size_eq hdone
        · intro row hrow
          apply List.length_take_of_le
          rw [hrest row hrow]
          exact Nat.le_add_right ..
        · intro row hrow
          rw [hlast row hrow, Nat.add_assoc]
          exact hwidth
      · have hnext : ∀ row < product leading,
            (done row ++ segment dtype leading trailing tensor row).length = column + chunk := by
          intro row hrow
          rw [List.length_append, hdone row hrow, haligned.1.length_segment hrow]
        have hothers := ih haligned.2 hnext hlast ((Nat.add_assoc ..).trans hwidth)
        simp only [List.append_assoc] at hothers
        simp only [List.flatMap_cons, List.append_assoc]
        exact hothers

theorem join_run {buffer : Array dtype.Element}
    (hsize : buffer.size =
      product (leading ++ total (tensors.map (extentAt leading.length)) :: trailing)) :
    join dtype leading.length (product leading)
        (total (tensors.map (extentAt leading.length)) * product trailing) (product trailing) 0
        tensors buffer =
      .ok () ((Shape.coordinates
        ⟨leading ++ total (tensors.map (extentAt leading.length)) :: trailing⟩).map
          (Kernel.joinedElement dtype leading.length tensors)).toArray := by
  rw [product_append, product_cons, ← Array.length_toList] at hsize
  obtain ⟨row, hrow, hrows⟩ := exists_blocks hsize
  have hnone : ∀ o < product leading, ([] : List dtype.Element).length = 0 := fun _ _ => rfl
  have hjoin := rewrites_join haligned hnone hrow (Nat.zero_add _)
  simp only [List.nil_append] at hjoin
  have hdone := hjoin.run
  rw [← hrows, Array.toArray_toList, ← joined_eq haligned] at hdone
  exact hdone

end Join

theorem concat_realizes (inputs : List Tensor) (axis : Nat) :
    Realizes (concat inputs axis) (Kernel.concat inputs axis) := by
  intro output
  rw [concat, get_bind_apply]
  cases inputs with
  | nil => rfl
  | cons first others =>
      apply dtype_step
      intro (hdtype : first.dtype = output.dtype)
      apply check_step
      intro _ hsame
      rw [concatShape_eq]
      apply check_step
      intro expected hexpected
      apply shape_step
      intro (hshape : expected = output.shape)
      obtain ⟨leading, trailing, rfl, hdims, hresult⟩ := exists_layout hexpected
      have haligned : ∀ tensor ∈ first :: others, Aligned first.dtype leading trailing tensor := by
        intro tensor hmem
        have htensor := Kernel.requireSameDType_eq_ok_iff.mp (forM_eq_ok_iff.mp hsame tensor hmem)
        exact ⟨htensor.symm, hdims _ (List.mem_map_of_mem hmem)⟩
      let extent := total ((first :: others).map (extentAt leading.length))
      have houtput : output.shape.dims = leading ++ extent :: trailing := by
        rw [← hshape, hresult, List.map_map]
        rfl
      have htake : initial output.storage.shape.dims leading.length = .ok leading := by
        simp [Tensor.storage, houtput, initial]
      have hdrop : suffix output.storage.shape.dims (leading.length + 1) = .ok trailing := by
        simp [Tensor.storage, houtput, suffix]
      have hextent : entry output.storage.shape.dims leading.length = .ok extent :=
        entry_eq_ok (by simp [Tensor.storage, houtput])
      rw [htake, read_ok_bind_apply, hdrop, read_ok_bind_apply, hextent, read_ok_bind_apply]
      change _ = ending output (.ok (Tensor.tabulate ..))
      rw [← Tensor.ofArray_eq_tabulate]
      apply onElements_ending hdtype.symm (by simp)
      intro elements helements
      have hshape : output.shape = ⟨leading ++ extent :: trailing⟩ := congrArg Shape.mk houtput
      rw [hshape] at helements ⊢
      apply join_run haligned
      rw [helements, List.size_toArray, List.length_map, Shape.length_coordinates, Shape.count]

end InPlace
end NetImport
