import NetImport.Kernel.Rearrangement
import NetImport.Proofs.InPlace.Walks
import NetImport.Proofs.Kernel.Broadcasting
import NetImport.Proofs.Kernel.Matrices

/-!
# Routines that move elements

Reshaping and filling replace the whole buffer.  Transposing, slicing and broadcasting walk
through the coordinates of the output and copy from a position in the input, which stays
inside the input for every coordinate list of the output.
-/

namespace NetImport

namespace InPlace

variable {α : Type}

/-! ## Whole buffers -/

def reshape (input : Tensor) : Routine Storage Unit := do
  let output ← get
  Kernel.requireSameDType "reshape" input.dtype output.dtype
  if input.data.size = output.data.size then
    set (⟨input.dtype, output.shape, input.data⟩ : Storage)
  else refuse (.shapeMismatch "reshape" input.shape output.shape)

def splat (value : Float) : Routine Storage Unit := do
  let output ← get
  set (⟨output.dtype, output.shape,
    Array.replicate output.data.size (output.dtype.ofFloat value)⟩ : Storage)

theorem reshape_realizes (input : Tensor) : Realizes (reshape input) (Kernel.reshape input) := by
  intro output
  rw [reshape, get_bind_apply]
  apply dtype_step
  intro (hdtype : input.dtype = output.dtype)
  have hsizes : input.data.size = output.storage.data.size ↔
      output.shape.count = input.shape.count := by
    rw [input.size_eq, eq_comm]
    exact Eq.congr_left output.size_eq
  by_cases hcount : output.shape.count = input.shape.count
  · rw [if_pos (hsizes.mpr hcount), Tensor.reshaped, dif_pos hcount]
    rfl
  · rw [if_neg fun hsize => hcount (hsizes.mp hsize), Tensor.reshaped, dif_neg hcount]
    rfl

theorem splat_realizes (value : Float) :
    Realizes (splat value) fun output => .ok (Kernel.splat value output) := by
  rintro ⟨dtype, shape, data, hsize⟩
  change EStateM.Result.ok () (Storage.mk dtype shape (Array.replicate data.size _)) = _
  rw [hsize]
  rfl

/-! ## Selection -/

def selectInto (mask : Array Bool) (onTrue onFalse : Array α) : Routine (Array α) Unit := do
  let buffer ← get
  (List.range buffer.size).forM fun i => do
    let chosen ← load mask i
    let value ← if chosen then load onTrue i else load onFalse i
    store i value

def selectTyped (dtype : DType) (cond onTrue onFalse : Tensor) : Routine Storage Unit := do
  let mask ← typed "select" .bool cond
  let x ← typed "select" dtype onTrue
  let y ← typed "select" dtype onFalse
  onTyped "select" dtype (selectInto mask x y)

def select (cond onTrue onFalse : Tensor) : Routine Storage Unit := do
  let output ← get
  if cond.dtype = .bool then do
    Kernel.requireSameDType "select" onTrue.dtype onFalse.dtype
    Kernel.requireSameDType "select" onTrue.dtype output.dtype
    Kernel.requireShape "select" cond.shape onTrue.shape
    Kernel.requireShape "select" cond.shape onFalse.shape
    Kernel.requireShape "select (output)" cond.shape output.shape
    selectTyped output.dtype cond onTrue onFalse
  else refuse (.unsupportedDType "select" cond.dtype)

theorem selectInto_run {mask : Array Bool} {onTrue onFalse buffer : Array α}
    (hmask : buffer.size = mask.size) (htrue : mask.size = onTrue.size)
    (hfalse : mask.size = onFalse.size) :
    selectInto mask onTrue onFalse buffer =
      .ok () (Array.zipWith (fun (chosen : Bool) (pair : α × α) =>
        if chosen then pair.1 else pair.2) mask (Array.zip onTrue onFalse)) := by
  have hsize : buffer.size = (Array.zipWith (fun (chosen : Bool) (pair : α × α) =>
      if chosen then pair.1 else pair.2) mask (Array.zip onTrue onFalse)).size := by
    simp [hmask, ← htrue, ← hfalse]
  rw [selectInto, get_bind_apply, hsize]
  apply forM_range_eq_target hsize
  intro i value hvalue
  obtain ⟨chosen, pair, hchosen, hpair, rfl⟩ := Array.getElem?_zipWith_eq_some.mp hvalue
  obtain ⟨hx, hy⟩ := Array.getElem?_zip_eq_some.mp hpair
  apply Fills.read_ok (load_eq_ok hchosen)
  cases chosen
  · exact Fills.read_ok (load_eq_ok hy) (Fills.store i pair.2)
  · exact Fills.read_ok (load_eq_ok hx) (Fills.store i pair.1)

theorem select_realizes (cond onTrue onFalse : Tensor) :
    Realizes (select cond onTrue onFalse) (Kernel.select cond onTrue onFalse) := by
  intro output
  rw [select, get_bind_apply, Kernel.select]
  by_cases hcond : cond.dtype = .bool
  · obtain ⟨mask, hmask⟩ := Tensor.exists_elements?_iff.mpr hcond
    rw [if_pos hcond, hmask]
    apply dtype_step
    intro hoperands
    apply dtype_step
    intro (hdtype : onTrue.dtype = output.dtype)
    apply shape_step
    intro htrue
    apply shape_step
    intro hfalse
    apply shape_step
    intro (hshape : cond.shape = output.shape)
    obtain ⟨y, hy⟩ := Tensor.exists_elements?_iff.mpr hoperands.symm
    have hother : Kernel.elementsAs onTrue.dtype onFalse = y := by
      rw [Kernel.elementsAs, hy]
      rfl
    have hx : mask.size = onTrue.data.size := by
      rw [Tensor.size_of_elements? hmask, onTrue.size_eq, htrue]
    have hxy : mask.size = y.size := by
      rw [Tensor.size_of_elements? hmask, Tensor.size_of_elements? hy, hfalse]
    change selectTyped output.dtype cond onTrue onFalse output.storage = _
    dsimp only
    rw [hother, ← hdtype, selectTyped, typed_eq_ok hmask, check_ok_bind_apply,
      typed_eq_ok (Tensor.elements?_own onTrue), check_ok_bind_apply, typed_eq_ok hy,
      check_ok_bind_apply]
    apply onElements_ending hdtype.symm
    · simp [← hx, ← hxy, Tensor.size_of_elements? hmask, hshape]
    · intro elements helements
      apply selectInto_run _ hx hxy
      simpa [← hx, ← hxy] using helements
  · have hrefused : cond.elements? .bool = none := by
      simp [Tensor.elements?, hcond]
    rw [if_neg hcond, hrefused]
    rfl

/-! ## Copies along the output -/

/-- Copies each element of the output from a position in the input. -/
def copyFrom (op : String) (input : Tensor) (position : List Nat → Except Stop Nat) :
    Routine Storage Unit := do
  let output ← get
  let source ← typed op input.dtype input
  onTyped op input.dtype (copyAlong output.shape.dims source position)

theorem copyFrom_ending {op : String} {input output : Tensor}
    {position : List Nat → Except Stop Nat} {offsetOf : List Nat → Nat}
    (hdtype : input.dtype = output.dtype)
    (hposition : ∀ coords, inBounds output.shape.dims coords →
      position coords = .ok (offsetOf coords) ∧ offsetOf coords < input.shape.count) :
    copyFrom op input position output.storage =
      ending output (.ok (Tensor.tabulate input.dtype output.shape fun coords =>
        input.get (offsetOf coords))) := by
  rw [copyFrom, get_bind_apply, typed_eq_ok (Tensor.elements?_own input), check_ok_bind_apply,
    ← Tensor.ofArray_eq_tabulate]
  apply onElements_ending hdtype.symm
  · simp
  · intro elements helements
    apply copyAlong_run
    · intro coords hcoords
      obtain ⟨hread, hinside⟩ := hposition coords hcoords
      rw [hread, ok_bind]
      exact load_eq_ok_getD _ (lt_of_lt_of_eq hinside input.size_eq.symm)
    · exact helements.trans (by simp [Tensor.storage])

/-! ## Transposition -/

/-- Whether every position is below the rank and none has been seen before. -/
def namesEachOnce (rank : Nat) : List Bool → List Nat → Except Stop Bool
  | _, [] => .ok true
  | seen, p :: perm =>
      if p < rank then do
        let before ← entry seen p
        if before then return false else namesEachOnce rank (seen.set p true) perm
      else .ok false

def isPermutation (rank : Nat) (perm : List Nat) : Except Stop Bool :=
  if perm.length = rank then namesEachOnce rank (List.replicate rank false) perm else .ok false

def transposedShape (shape : Shape) (perm : List Nat) : Except Stop Shape := do
  let valid ← isPermutation shape.rank perm
  if valid then return ⟨← perm.mapM (entry shape.dims)⟩
  else
    .error (.refused (.invalidArgument "transpose"
      s!"{Kernel.listText perm} is not a permutation of rank {shape.rank}"))

def transposedPosition (steps perm coords : List Nat) : Except Stop Nat := do
  let terms ← (coords.zip perm).mapM fun pair => do
    let step ← entry steps pair.2
    return pair.1 * step
  return total terms

def transpose (input : Tensor) (perm : List Nat) : Routine Storage Unit := do
  let output ← get
  Kernel.requireSameDType "transpose" input.dtype output.dtype
  let expected ← transposedShape input.shape perm
  Kernel.requireShape "transpose (output)" expected output.shape
  copyFrom "transpose" input (transposedPosition (strides input.shape.dims) perm)

theorem namesEachOnce_eq_ok {rank : Nat} {perm : List Nat} :
    ∀ {seen : List Bool} {visited : List Nat},
      (∀ p < rank, seen[p]? = some (decide (p ∈ visited))) →
        namesEachOnce rank seen perm =
          .ok (perm.all (· < rank) && decide perm.Nodup && perm.all (· ∉ visited)) := by
  induction perm with
  | nil =>
      intro seen visited hseen
      rfl
  | cons p perm ih =>
      intro seen visited hseen
      rw [namesEachOnce]
      by_cases hp : p < rank
      · rw [if_pos hp, entry_eq_ok (hseen p hp), ok_bind]
        by_cases hvisited : p ∈ visited
        · simp [hvisited]
        · have hnext : ∀ q < rank, (seen.set p true)[q]? =
              some (decide (q ∈ p :: visited)) := by
            intro q hq
            by_cases hqp : q = p
            · subst hqp
              have hlength := List.getElem?_eq_some_iff.mp (hseen q hq)
              rw [List.getElem?_set_self hlength.1]
              simp
            · rw [List.getElem?_set_ne (Ne.symm hqp), hseen q hq]
              simp [hqp]
          have hsame : (perm.all (· < rank) && decide perm.Nodup && perm.all (· ∉ p :: visited)) =
              ((p :: perm).all (· < rank) && decide (p :: perm).Nodup &&
                (p :: perm).all (· ∉ visited)) := by
            rw [Bool.eq_iff_iff]
            simp only [Bool.and_eq_true, List.all_eq_true, decide_eq_true_eq, List.mem_cons,
              List.nodup_cons, forall_eq_or_imp]
            grind
          rw [if_neg (by simpa using hvisited), ih hnext, hsame]
      · rw [if_neg hp]
        simp [hp]

theorem isPermutation_eq_ok (rank : Nat) (perm : List Nat) :
    isPermutation rank perm = .ok (Kernel.isPermutation rank perm) := by
  rw [isPermutation, Kernel.isPermutation]
  by_cases hlength : perm.length = rank
  · have hnames := @namesEachOnce_eq_ok rank perm (List.replicate rank false) [] fun p hp => by
      simp [hp]
    rw [if_pos hlength, hnames]
    simp [hlength]
  · rw [if_neg hlength]
    simp [hlength]

theorem transposedShape_eq (shape : Shape) (perm : List Nat) :
    transposedShape shape perm = liftM (Kernel.transposedShape shape perm) := by
  rw [transposedShape, Kernel.transposedShape, isPermutation_eq_ok, ok_bind]
  by_cases hperm : Kernel.isPermutation shape.rank perm
  · have hread : perm.mapM (entry shape.dims) = .ok (perm.map fun p => shape.dims.getD p 0) := by
      apply mapM_eq_ok_map
      intro p hp
      have hbelow : p < shape.dims.length := (Kernel.isPermutation_iff.mp hperm).2.1 p hp
      apply entry_eq_ok
      simp [hbelow]
    rw [if_pos hperm, if_pos hperm, hread]
    rfl
  · rw [if_neg hperm, if_neg hperm]
    rfl

theorem transposedPosition_eq_ok {dims perm : List Nat} (coords : List Nat)
    (hperm : ∀ p ∈ perm, p < dims.length) :
    transposedPosition (strides dims) perm coords =
      .ok (Kernel.transposedOffset dims perm coords) := by
  have hterms : ((coords.zip perm).mapM fun pair => do
      let step ← entry (strides dims) pair.2
      return pair.1 * step) =
        .ok ((coords.zip perm).map fun pair => pair.1 * (strides dims).getD pair.2 0) := by
    apply mapM_eq_ok_map
    intro pair hpair
    have hp : pair.2 < (strides dims).length := by
      rw [Kernel.length_strides]
      exact hperm pair.2 (List.of_mem_zip hpair).2
    have hstep : entry (strides dims) pair.2 = .ok ((strides dims).getD pair.2 0) := by
      apply entry_eq_ok
      simp [hp]
    rw [hstep]
    rfl
  rw [transposedPosition, hterms, ok_bind, List.zip, List.map_zipWith]
  rfl

theorem transpose_realizes (input : Tensor) (perm : List Nat) :
    Realizes (transpose input perm) (Kernel.transpose input perm) := by
  intro output
  rw [transpose, get_bind_apply, transposedShape_eq]
  apply dtype_step
  intro (hdtype : input.dtype = output.dtype)
  apply check_step
  intro expected hexpected
  apply shape_step
  intro (hshape : expected = output.shape)
  obtain ⟨hperm, rfl⟩ := Kernel.transposedShape_eq_ok_iff.mp hexpected
  apply copyFrom_ending hdtype
  intro coords hcoords
  rw [← hshape] at hcoords
  obtain ⟨behind, hbehind, -, hoffset⟩ :=
    Kernel.exists_behind (Kernel.isPermutation_iff_perm.mp hperm) hcoords
  refine ⟨transposedPosition_eq_ok coords (Kernel.isPermutation_iff.mp hperm).2.1, ?_⟩
  rw [hoffset]
  exact offset_lt hbehind

/-! ## Slices -/

def slicedPosition (steps start coords : List Nat) : Nat :=
  total (List.zipWith (fun pair step => (pair.1 + pair.2) * step) (coords.zip start) steps)

def slice (input : Tensor) (start : List Nat) : Routine Storage Unit := do
  let output ← get
  Kernel.requireSameDType "slice" input.dtype output.dtype
  if Kernel.boxFits start output.shape.dims input.shape.dims then
    copyFrom "slice" input fun coords =>
      .ok (slicedPosition (strides input.shape.dims) start coords)
  else
    refuse (.invalidArgument "slice"
      (s!"window at {Kernel.listText start} of size {output.shape.text} exceeds input " ++
        input.shape.text))

theorem slicedPosition_eq (dims start coords : List Nat) :
    slicedPosition (strides dims) start coords = Kernel.slicedOffset dims start coords := by
  have hsums : List.zipWith (· + ·) coords start =
      (coords.zip start).map fun pair => pair.1 + pair.2 := by
    rw [List.zip, List.map_zipWith]
  rw [slicedPosition, Kernel.slicedOffset, offset, hsums, List.zipWith_map_left]

theorem inBounds_of_boxFits {start size dims coords : List Nat}
    (hfits : Kernel.boxFits start size dims) (hcoords : inBounds size coords) :
    inBounds dims (List.zipWith (· + ·) coords start) := by
  induction start generalizing size dims coords with
  | nil =>
      cases size <;> cases dims <;> simp [Kernel.boxFits] at hfits
      cases coords <;> simp [inBounds] at hcoords ⊢
  | cons s start ih =>
      cases size with
      | nil => simp [Kernel.boxFits] at hfits
      | cons n size =>
          cases dims with
          | nil => simp [Kernel.boxFits] at hfits
          | cons d dims =>
              cases coords with
              | nil => simp [inBounds] at hcoords
              | cons c coords =>
                  simp only [Kernel.boxFits, Bool.and_eq_true, decide_eq_true_eq] at hfits
                  obtain ⟨hc, hrest⟩ := (inBounds_cons ..).mp hcoords
                  rw [List.zipWith_cons_cons, inBounds_cons]
                  exact ⟨by omega, ih hfits.2 hrest⟩

theorem slice_realizes (input : Tensor) (start : List Nat) :
    Realizes (slice input start) (Kernel.slice input start) := by
  intro output
  rw [slice, get_bind_apply]
  apply dtype_step
  intro (hdtype : input.dtype = output.dtype)
  by_cases hfits : Kernel.boxFits start output.shape.dims input.shape.dims
  · rw [if_pos hfits]
    refine Eq.trans (congrFun (if_pos hfits) _) ?_
    apply copyFrom_ending hdtype
    intro coords hcoords
    rw [slicedPosition_eq]
    exact ⟨rfl, offset_lt (inBounds_of_boxFits hfits hcoords)⟩
  · rw [if_neg hfits]
    exact congrFun (if_neg hfits) _

/-! ## Broadcasting -/

def suffix (entries : List Nat) (start : Nat) : Except Stop (List Nat) :=
  if start ≤ entries.length then .ok (entries.drop start) else .error .fault

/-- The extents of the target from the axis on are only looked at when there are enough. -/
def stretches (axis : Nat) (input target : Shape) : Except Stop Bool :=
  if axis + input.rank ≤ target.rank then do
    let aligned ← suffix target.dims axis
    return (input.dims.zip aligned).all fun pair => pair.1 == pair.2 || pair.1 == 1
  else .ok false

def checkBroadcast (axis : Nat) (input target : Shape) : Except Stop Unit := do
  let fits ← stretches axis input target
  if fits then return ()
  else .error (.refused (.shapeMismatch "broadcast" input target))

def broadcastPosition (dims steps : List Nat) (axis : Nat) (coords : List Nat) :
    Except Stop Nat := do
  let terms ← dims.zipIdx.mapM fun pair =>
    if pair.1 = 1 then .ok 0
    else do
      let c ← entry coords (axis + pair.2)
      let step ← entry steps pair.2
      return c * step
  return total terms

def broadcast (input : Tensor) (axis : Nat) : Routine Storage Unit := do
  let output ← get
  Kernel.requireSameDType "broadcast" input.dtype output.dtype
  checkBroadcast axis input.shape output.shape
  copyFrom "broadcast" input
    (broadcastPosition input.shape.dims (strides input.shape.dims) axis)

theorem stretches_eq_all {dims target : List Nat} (hlength : dims.length ≤ target.length) :
    Kernel.stretches dims target =
      (dims.zip target).all fun pair => pair.1 == pair.2 || pair.1 == 1 := by
  induction dims generalizing target with
  | nil => rfl
  | cons d dims ih =>
      cases target with
      | nil => simp at hlength
      | cons t target => simp [Kernel.stretches, ih (Nat.le_of_succ_le_succ hlength)]

theorem checkBroadcast_eq (axis : Nat) (input target : Shape) :
    checkBroadcast axis input target = liftM (Kernel.checkBroadcast axis input target) := by
  rw [checkBroadcast, Kernel.checkBroadcast, stretches]
  by_cases hrank : axis + input.rank ≤ target.rank
  · have haxis : suffix target.dims axis = .ok (target.dims.drop axis) :=
      if_pos (Nat.le_of_add_right_le hrank)
    have hlength : input.dims.length ≤ (target.dims.drop axis).length := by
      rw [List.length_drop]
      exact Nat.le_sub_of_add_le' hrank
    rw [if_pos hrank, haxis, ok_bind, stretches_eq_all hlength]
    by_cases hall : (input.dims.zip (target.dims.drop axis)).all
        fun pair => pair.1 == pair.2 || pair.1 == 1
    · rw [if_pos ⟨hrank, hall⟩, hall]
      rfl
    · rw [if_neg fun hboth => hall hboth.2, eq_false_of_ne_true hall]
      rfl
  · rw [if_neg hrank, if_neg fun hboth => hrank hboth.1]
    rfl

theorem broadcastPosition_eq_ok {dims coords : List Nat} {axis : Nat}
    (hlength : axis + dims.length ≤ coords.length) :
    broadcastPosition dims (strides dims) axis coords =
      .ok (Kernel.broadcastOffset dims axis coords) := by
  have hterms : (dims.zipIdx.mapM fun pair =>
      if pair.1 = 1 then .ok 0
      else do
        let c ← entry coords (axis + pair.2)
        let step ← entry (strides dims) pair.2
        return c * step) =
      .ok (dims.zipIdx.map fun pair =>
        (if pair.1 = 1 then 0 else coords.getD (axis + pair.2) 0) *
          (strides dims).getD pair.2 0) := by
    apply mapM_eq_ok_map
    intro pair hpair
    have hindex : pair.2 < dims.length := by
      simpa using List.snd_lt_of_mem_zipIdx hpair
    by_cases hunit : pair.1 = 1
    · simp [hunit]
    · have hc : entry coords (axis + pair.2) = .ok (coords.getD (axis + pair.2) 0) := by
        have hinside : axis + pair.2 < coords.length := by omega
        apply entry_eq_ok
        simp [hinside]
      have hstep : entry (strides dims) pair.2 = .ok ((strides dims).getD pair.2 0) := by
        apply entry_eq_ok
        simp [hindex, Kernel.length_strides]
      rw [if_neg hunit, if_neg hunit, hc, hstep]
      rfl
  have hsame : (dims.zipIdx.map fun pair =>
      (if pair.1 = 1 then 0 else coords.getD (axis + pair.2) 0) *
        (strides dims).getD pair.2 0) =
      List.zipWith (· * ·)
        (List.zipWith (fun d c => if d = 1 then 0 else c) dims (coords.drop axis))
        (strides dims) := by
    apply List.ext_getElem
    · simp [Kernel.length_strides]
      omega
    · intro i hi hi'
      have hindex : i < dims.length := by simpa using hi
      have hinside : axis + i < coords.length := by omega
      simp [hindex, hinside, Kernel.length_strides]
  rw [broadcastPosition, hterms, ok_bind, hsame]
  rfl

theorem broadcast_realizes (input : Tensor) (axis : Nat) :
    Realizes (broadcast input axis) (Kernel.broadcast input axis) := by
  intro output
  rw [broadcast, get_bind_apply, checkBroadcast_eq]
  apply dtype_step
  intro (hdtype : input.dtype = output.dtype)
  apply check_step
  intro _ hchecked
  have hfits : axis + input.shape.rank ≤ output.shape.rank ∧
      Kernel.stretches input.shape.dims (output.shape.dims.drop axis) := by
    by_contra hmisfit
    cases hchecked.symm.trans (if_neg hmisfit)
  apply copyFrom_ending hdtype
  intro coords hcoords
  have hlength : axis + input.shape.dims.length ≤ coords.length := by
    rw [length_of_inBounds hcoords]
    exact hfits.1
  exact ⟨broadcastPosition_eq_ok hlength,
    offset_lt (Kernel.inBounds_of_stretches hfits.2 (inBounds_drop axis hcoords))⟩

end InPlace
end NetImport
