import NetImport.Model.Weights
import NetImport.Proofs.Model.Environment
import NetImport.Proofs.Model.Refusals
import NetImport.Proofs.Model.Words
import NetImport.Proofs.Sequencing
import NetImport.Proofs.Tensor.Integers

/-!
# The weights of an init net

A table of weights lists what the operators of its net fill, in their order.  An operator of
whole numbers fills a tensor with exactly the numbers it lists, or it is refused.  In words this
holds of the operators whose elements can be counted in a word.
-/

namespace NetImport

/-- The whole numbers of a list.  An empty list may be one of fractions. -/
def ArgValue.listedInts? : ArgValue → Option (List Int64)
  | .ints values => some values
  | .floats [] => some []
  | _ => none

/-- The number of entries of a list of numbers. -/
def ArgValue.entryCount? : ArgValue → Option Nat
  | .ints values => some values.length
  | .floats values => some values.length
  | _ => none

namespace Operator

variable {op : Operator} {name : String} {values : List Int64}

theorem intsArg?_eq_ok (hlisted : (op.args.get? name).bind ArgValue.listedInts? = some values) :
    op.intsArg? name = .ok (some (values.map Int64.toInt)) := by
  obtain ⟨value, hvalue, hints⟩ := Option.bind_eq_some_iff.mp hlisted
  unfold intsArg?
  rw [hvalue]
  match value, hints with
  | .ints values, hints => rw [← Option.some.inj hints]
  | .floats [], hints => rw [← Option.some.inj hints]; rfl

theorem toNatural_eq_ok_iff {i : Int} {n : Nat} :
    op.toNatural name i = .ok n ↔ 0 ≤ i ∧ n = i.toNat := by
  unfold toNatural
  split
  · next hnonneg => simp [hnonneg, eq_comm]
  · next hnegative => simp [hnegative]

/-- Extents are read when none of them is negative. -/
theorem naturalsArg?_eq_ok_iff
    (hlisted : (op.args.get? name).bind ArgValue.listedInts? = some values)
    {found : Option (List Nat)} :
    op.naturalsArg? name = .ok found ↔
      (∀ value ∈ values, 0 ≤ value.toInt) ∧
        found = some (values.map fun value => value.toInt.toNat) := by
  have hmap {naturals : List Nat} :
      (values.map Int64.toInt).mapM (op.toNatural name) = .ok naturals ↔
        (∀ value ∈ values, 0 ≤ value.toInt) ∧
          naturals = values.map fun value => value.toInt.toNat := by
    rw [mapM_eq_ok_iff, List.forall₂_map_left_iff]
    simp only [toNatural_eq_ok_iff]
    constructor
    · intro hall
      constructor
      · intro value hvalue
        exact (exists_forall₂_iff.mp ⟨naturals, hall⟩ value hvalue).choose_spec.1
      · simpa using (forall₂_view_iff.mp (hall.imp fun _ _ h => h.2.symm)).symm
    · rintro ⟨hnonneg, rfl⟩
      rw [List.forall₂_map_right_iff, List.forall₂_same]
      exact fun value hvalue => ⟨hnonneg value hvalue, rfl⟩
  unfold naturalsArg?
  rw [intsArg?_eq_ok hlisted, ok_bind]
  dsimp only
  simp only [bind_eq_ok_iff, pure_eq_ok_iff, hmap]
  constructor
  · rintro ⟨naturals, ⟨hnonneg, rfl⟩, rfl⟩
    exact ⟨hnonneg, rfl⟩
  · rintro ⟨hnonneg, rfl⟩
    exact ⟨_, ⟨hnonneg, rfl⟩, rfl⟩

end Operator

namespace Fill

variable {op : Operator} {dtype : DType} {dims : List Int64} {tensor : Tensor}

/-! ## Whole numbers -/

/-- Whole numbers that are asked for: one for each element, or the same for all of them. -/
inductive Payload where
  | listed (values : List Int64)
  | uniform (value : Int64)

namespace Payload

def values : Payload → List Int64
  | listed values => values
  | uniform value => [value]

/-- The numbers asked for, when there are `count` elements. -/
def elements (count : Nat) : Payload → List Int
  | listed values => values.map Int64.toInt
  | uniform value => List.replicate count value.toInt

/-- A payload that can be stored: its extents are no negative numbers, its numbers are as many
as they say, and each one has an element of the type. -/
structure Fits (payload : Payload) (dtype : DType) (dims : List Int64) : Prop where
  nonneg : ∀ d ∈ dims, 0 ≤ d.toInt
  count : let count := product (dims.map fun d => d.toInt.toNat)
    (payload.elements count).length = count
  inRange : ∀ value ∈ payload.values, ∃ range, dtype.range? = some range ∧ value.toInt ∈ range

/-- A tensor of exactly the extents and the numbers asked for. -/
structure StoredIn (payload : Payload) (dtype : DType) (dims : List Int64) (tensor : Tensor) :
    Prop where
  dtype_eq : tensor.dtype = dtype
  dims_eq : tensor.shape.dims.map Int.ofNat = dims.map Int64.toInt
  elements_eq : tensor.data.toList.map tensor.dtype.toInt? =
    (payload.elements tensor.shape.count).map some

end Payload

/-- An operator that asks for whole numbers in an element type, for some extents. -/
inductive Asks (op : Operator) (dims : List Int64) : DType → Payload → Prop where
  | listed {dtype : DType} {values : List Int64}
      (hkind : op.kind = "GivenTensorIntFill" ∧ dtype = .i32 ∨
        op.kind = "GivenTensorInt64Fill" ∧ dtype = .i64)
      (hdims : (op.args.get? "shape").bind ArgValue.listedInts? = some dims)
      (hvalues : (op.args.get? "values").bind ArgValue.listedInts? = some values) :
      Asks op dims dtype (.listed values)
  | uniform {code value : Int64} {dtype : DType} (hkind : op.kind = "ConstantFill")
      (hdims : (op.args.get? "shape").bind ArgValue.listedInts? = some dims ∨
        op.args.get? "shape" = none ∧ dims = [])
      (hcode : op.args.get? "dtype" = some (.int code))
      (hdtype : dtypeOfCode? code.toInt = some dtype) (hwhole : dtype.range?.isSome)
      (hvalue : op.args.get? "value" = some (.int value)) :
      Asks op dims dtype (.uniform value)

theorem exact_eq_ok_iff {arg : String} {i : Int} {x : dtype.Element} :
    exact op arg dtype i = .ok x ↔ dtype.ofInt? i = some x := by
  unfold exact
  split <;> simp_all

theorem exists_exact_iff {arg : String} {i : Int} :
    (∃ x, exact op arg dtype i = .ok x) ↔ ∃ range, dtype.range? = some range ∧ i ∈ range := by
  simp only [exact_eq_ok_iff]
  cases hrange : dtype.range? with
  | some range => simp [DType.exists_ofInt?_iff hrange]
  | none => cases dtype <;> cases hrange <;> simp [DType.ofInt?]

/-- Numbers are stored as they are. -/
theorem toInt?_of_mapM_exact {arg : String} {is : List Int} {elements : List dtype.Element}
    (hmap : is.mapM (exact op arg dtype) = .ok elements) :
    elements.map dtype.toInt? = is.map some :=
  (forall₂_view_iff.mp ((mapM_eq_ok_iff.mp hmap).imp fun _ _ hx =>
    (DType.toInt?_of_ofInt? (exact_eq_ok_iff.mp hx)).symm)).symm

/-! ## Fills of listed values -/

theorem requiredShape_eq_ok_iff
    (hdims : (op.args.get? "shape").bind ArgValue.listedInts? = some dims) {shape : Shape} :
    requiredShape op = .ok shape ↔
      (∀ d ∈ dims, 0 ≤ d.toInt) ∧ shape = ⟨dims.map fun d => d.toInt.toNat⟩ := by
  unfold requiredShape
  rw [bind_eq_ok_iff]
  simp only [Operator.naturalsArg?_eq_ok_iff hdims]
  constructor
  · rintro ⟨found, ⟨hnonneg, rfl⟩, hshape⟩
    exact ⟨hnonneg, (pure_eq_ok_iff.mp hshape).symm⟩
  · rintro ⟨hnonneg, rfl⟩
    exact ⟨_, ⟨hnonneg, rfl⟩, rfl⟩

/-- A list of values fills a tensor when there is one for each position. -/
theorem listed_eq_ok_iff {data : List dtype.Element} :
    listed op dtype data = .ok tensor ↔
      ∃ shape, requiredShape op = .ok shape ∧ ∃ hsize : data.toArray.size = shape.count,
        tensor = ⟨dtype, shape, data.toArray, hsize⟩ := by
  unfold listed
  simp only [bind_eq_ok_iff]
  refine exists_congr fun shape => and_congr_right fun _ => ?_
  split
  · next hsize =>
      rw [pure_eq_ok_iff, exists_prop_of_true hsize]
      exact eq_comm
  · next hsize =>
      constructor
      · intro herror
        cases herror
      · rintro ⟨hfits, -⟩
        exact absurd hfits hsize

theorem requiredInts_eq_ok {values : List Int64}
    (hvalues : (op.args.get? "values").bind ArgValue.listedInts? = some values) :
    requiredInts op dtype = .ok (values.map Int64.toInt) := by
  unfold requiredInts
  rw [Operator.intsArg?_eq_ok hvalues]
  rfl

theorem listedInts_eq_ok_iff {values : List Int64}
    (hvalues : (op.args.get? "values").bind ArgValue.listedInts? = some values) :
    listedInts op dtype = .ok tensor ↔
      ∃ elements, (values.map Int64.toInt).mapM (exact op "values" dtype) = .ok elements ∧
        listed op dtype elements = .ok tensor := by
  unfold listedInts
  rw [requiredInts_eq_ok hvalues, ok_bind, bind_eq_ok_iff]

theorem map_toInt_dims (hnonneg : ∀ d ∈ dims, 0 ≤ d.toInt) :
    (dims.map fun d => d.toInt.toNat).map Int.ofNat = dims.map Int64.toInt := by
  rw [List.map_map]
  exact List.map_congr_left fun d hd => Int.toNat_of_nonneg (hnonneg d hd)

theorem listedInts_whole {values : List Int64}
    (hdims : (op.args.get? "shape").bind ArgValue.listedInts? = some dims)
    (hvalues : (op.args.get? "values").bind ArgValue.listedInts? = some values) :
    ((∃ tensor, listedInts op dtype = .ok tensor) ↔ (Payload.listed values).Fits dtype dims) ∧
      ∀ tensor, listedInts op dtype = .ok tensor →
        (Payload.listed values).StoredIn dtype dims tensor := by
  have hcases {tensor : Tensor} (hok : listedInts op dtype = .ok tensor) :
      (Payload.listed values).Fits dtype dims ∧
        (Payload.listed values).StoredIn dtype dims tensor := by
    obtain ⟨elements, helements, hlisted⟩ := (listedInts_eq_ok_iff hvalues).mp hok
    obtain ⟨shape, hshape, hsize, rfl⟩ := listed_eq_ok_iff.mp hlisted
    obtain ⟨hnonneg, rfl⟩ := (requiredShape_eq_ok_iff hdims).mp hshape
    have hlength : elements.length = values.length := by
      rw [length_of_mapM_eq_ok helements, List.length_map]
    refine ⟨⟨hnonneg, ?_, ?_⟩, ⟨rfl, map_toInt_dims hnonneg, toInt?_of_mapM_exact helements⟩⟩
    · simpa [Payload.elements, hlength, Shape.count] using hsize
    · intro value hvalue
      obtain ⟨x, -, hx⟩ := exists_mem_of_mapM_eq_ok helements (List.mem_map_of_mem hvalue)
      exact exists_exact_iff.mp ⟨x, hx⟩
  refine ⟨⟨fun ⟨tensor, hok⟩ => (hcases hok).1, fun hfits => ?_⟩, fun tensor hok => (hcases hok).2⟩
  have hall : ∀ i ∈ values.map Int64.toInt, ∃ x, exact op "values" dtype i = .ok x := by
    intro i hi
    obtain ⟨value, hvalue, rfl⟩ := List.mem_map.mp hi
    exact exists_exact_iff.mpr (hfits.inRange value hvalue)
  obtain ⟨elements, helements⟩ := exists_mapM_eq_ok_iff.mpr hall
  have hsize : elements.toArray.size = Shape.count ⟨dims.map fun d => d.toInt.toNat⟩ := by
    rw [List.size_toArray, length_of_mapM_eq_ok helements]
    exact hfits.count
  exact ⟨_, (listedInts_eq_ok_iff hvalues).mpr ⟨elements, helements,
    listed_eq_ok_iff.mpr ⟨_, (requiredShape_eq_ok_iff hdims).mpr ⟨hfits.nonneg, rfl⟩, hsize, rfl⟩⟩⟩

/-! ## Fills of one value -/

theorem uniform_eq_ok_iff {shape : Shape} {value : Int64} (hwhole : dtype.range?.isSome)
    (hvalue : op.args.get? "value" = some (.int value)) :
    uniform op shape dtype = .ok tensor ↔
      ∃ x, exact op "value" dtype value.toInt = .ok x ∧
        tensor = Tensor.constant dtype shape x := by
  have hinteger : ¬(dtype = .f32 ∨ dtype = .bool) := by
    rintro (rfl | rfl) <;> cases hwhole
  have hread : op.integerArg? "value" = .ok (some value.toInt) := by
    rw [Operator.integerArg?, hvalue]
  unfold uniform
  rw [if_neg hinteger, hread, ok_bind, bind_eq_ok_iff]
  refine exists_congr fun x => and_congr_right fun _ => ?_
  rw [pure_eq_ok_iff]
  exact eq_comm

/-- The extents of a fill of one value may be absent, and it is a scalar then. -/
theorem exists_naturalsArg?_iff
    (hdims : (op.args.get? "shape").bind ArgValue.listedInts? = some dims ∨
      op.args.get? "shape" = none ∧ dims = []) {naturals : List Nat} :
    (∃ found, op.naturalsArg? "shape" = .ok found ∧ found.getD [] = naturals) ↔
      (∀ d ∈ dims, 0 ≤ d.toInt) ∧ naturals = dims.map fun d => d.toInt.toNat := by
  rcases hdims with hlisted | ⟨habsent, rfl⟩
  · simp only [Operator.naturalsArg?_eq_ok_iff hlisted]
    constructor
    · rintro ⟨found, ⟨hnonneg, rfl⟩, rfl⟩
      exact ⟨hnonneg, rfl⟩
    · rintro ⟨hnonneg, rfl⟩
      exact ⟨_, ⟨hnonneg, rfl⟩, rfl⟩
  · have hnone : op.naturalsArg? "shape" = .ok none := by
      rw [Operator.naturalsArg?, Operator.intsArg?, habsent]
      rfl
    rw [hnone]
    simp [eq_comm]

theorem constant_eq_ok_iff {code : Int64} (hkind : op.kind = "ConstantFill")
    (hcode : op.args.get? "dtype" = some (.int code))
    (hdtype : dtypeOfCode? code.toInt = some dtype) :
    Fill.tensor op = .ok tensor ↔
      ∃ found, op.naturalsArg? "shape" = .ok found ∧
        uniform op ⟨found.getD []⟩ dtype = .ok tensor := by
  have hread : op.intArg "dtype" 1 = .ok code.toInt := by
    rw [Operator.intArg, Operator.intArg?, hcode]
    rfl
  unfold Fill.tensor
  simp only [hkind, hread, bind_eq_ok_iff, ok_bind, hdtype]

theorem constant_whole {code value : Int64} (hkind : op.kind = "ConstantFill")
    (hdims : (op.args.get? "shape").bind ArgValue.listedInts? = some dims ∨
      op.args.get? "shape" = none ∧ dims = [])
    (hcode : op.args.get? "dtype" = some (.int code))
    (hdtype : dtypeOfCode? code.toInt = some dtype) (hwhole : dtype.range?.isSome)
    (hvalue : op.args.get? "value" = some (.int value)) :
    ((∃ tensor, Fill.tensor op = .ok tensor) ↔ (Payload.uniform value).Fits dtype dims) ∧
      ∀ tensor, Fill.tensor op = .ok tensor →
        (Payload.uniform value).StoredIn dtype dims tensor := by
  have hiff {tensor : Tensor} : Fill.tensor op = .ok tensor ↔
      (∀ d ∈ dims, 0 ≤ d.toInt) ∧ ∃ x, exact op "value" dtype value.toInt = .ok x ∧
        tensor = Tensor.constant dtype ⟨dims.map fun d => d.toInt.toNat⟩ x := by
    simp only [constant_eq_ok_iff hkind hcode hdtype, uniform_eq_ok_iff hwhole hvalue]
    constructor
    · rintro ⟨found, hfound, x, hx, rfl⟩
      obtain ⟨hnonneg, heq⟩ := (exists_naturalsArg?_iff hdims).mp ⟨found, hfound, rfl⟩
      rw [heq]
      exact ⟨hnonneg, x, hx, rfl⟩
    · rintro ⟨hnonneg, x, hx, rfl⟩
      obtain ⟨found, hfound, heq⟩ := (exists_naturalsArg?_iff hdims).mpr ⟨hnonneg, rfl⟩
      exact ⟨found, hfound, x, hx, by rw [heq]⟩
  refine ⟨?_, ?_⟩
  · simp only [hiff]
    constructor
    · rintro ⟨-, hnonneg, x, hx, -⟩
      refine ⟨hnonneg, by simp [Payload.elements], ?_⟩
      intro listed hlisted
      obtain rfl := List.mem_singleton.mp hlisted
      exact exists_exact_iff.mp ⟨x, hx⟩
    · intro hfits
      obtain ⟨x, hx⟩ := exists_exact_iff.mpr (hfits.inRange value (List.mem_singleton_self value))
      exact ⟨_, hfits.nonneg, x, hx, rfl⟩
  · intro tensor hok
    obtain ⟨hnonneg, x, hx, rfl⟩ := hiff.mp hok
    refine ⟨rfl, map_toInt_dims hnonneg, ?_⟩
    simp [Tensor.constant, Payload.elements, DType.toInt?_of_ofInt? (exact_eq_ok_iff.mp hx)]

/-- Whole numbers are stored exactly when they fit, and they are stored as they are. -/
theorem tensor_whole {payload : Payload} (hasks : Asks op dims dtype payload) :
    ((∃ tensor, Fill.tensor op = .ok tensor) ↔ payload.Fits dtype dims) ∧
      ∀ tensor, Fill.tensor op = .ok tensor → payload.StoredIn dtype dims tensor := by
  cases hasks with
  | listed hkind hdims hvalues =>
      have htensor : Fill.tensor op = listedInts op dtype := by
        rcases hkind with ⟨hkind, rfl⟩ | ⟨hkind, rfl⟩ <;> simp only [Fill.tensor, hkind]
      rw [htensor]
      exact listedInts_whole hdims hvalues
  | uniform hkind hdims hcode hdtype hwhole hvalue =>
      exact constant_whole hkind hdims hcode hdtype hwhole hvalue

/-! ## All fills -/

/-- A filled tensor has the extents that its operator gives, and as many elements as the
operator lists. -/
structure Measured (op : Operator) (tensor : Tensor) : Prop where
  size_eq : tensor.data.size = product tensor.shape.dims
  dims_eq : ∀ dims, (op.args.get? "shape").bind ArgValue.listedInts? = some dims →
    tensor.shape.dims.map Int.ofNat = dims.map Int64.toInt
  count_eq : op.kind ≠ "ConstantFill" → ∀ count,
    (op.args.get? "values").bind ArgValue.entryCount? = some count →
      count = product tensor.shape.dims

theorem length_of_intsArg? {values : List Int} {count : Nat}
    (hread : op.intsArg? "values" = .ok (some values))
    (hcount : (op.args.get? "values").bind ArgValue.entryCount? = some count) :
    values.length = count := by
  obtain ⟨value, hvalue, hentries⟩ := Option.bind_eq_some_iff.mp hcount
  rw [Operator.intsArg?, hvalue] at hread
  match value, hentries, hread with
  | .ints values, hentries, hread =>
      rw [← Option.some.inj (Except.ok.inj hread), List.length_map]
      exact Option.some.inj hentries
  | .floats [], hentries, hread =>
      rw [← Option.some.inj (Except.ok.inj hread)]
      exact Option.some.inj hentries

theorem length_of_singlesArg? {values : List Float32} {count : Nat}
    (hread : op.singlesArg? "values" = .ok (some values))
    (hcount : (op.args.get? "values").bind ArgValue.entryCount? = some count) :
    values.length = count := by
  obtain ⟨value, hvalue, hentries⟩ := Option.bind_eq_some_iff.mp hcount
  rw [Operator.singlesArg?, hvalue] at hread
  match value, hentries, hread with
  | .ints values, hentries, hread =>
      rw [← Option.some.inj (Except.ok.inj hread), List.length_map]
      exact Option.some.inj hentries
  | .floats values, hentries, hread =>
      rw [← Option.some.inj (Except.ok.inj hread), List.length_map]
      exact Option.some.inj hentries

theorem measured_of_listed {data : List dtype.Element}
    (hcount : ∀ count, (op.args.get? "values").bind ArgValue.entryCount? = some count →
      data.length = count)
    (hok : listed op dtype data = .ok tensor) : Measured op tensor := by
  obtain ⟨shape, hshape, hsize, rfl⟩ := listed_eq_ok_iff.mp hok
  refine ⟨hsize, ?_, ?_⟩
  · intro dims hdims
    obtain ⟨hnonneg, rfl⟩ := (requiredShape_eq_ok_iff hdims).mp hshape
    exact map_toInt_dims hnonneg
  · intro _ count hlisted
    rw [← hcount count hlisted]
    exact hsize

theorem requiredInts_eq_ok_iff {values : List Int} :
    requiredInts op dtype = .ok values ↔ op.intsArg? "values" = .ok (some values) := by
  unfold requiredInts
  rcases op.intsArg? "values" with error | found
  · exact ⟨fun h => (by cases h), fun h => (by cases h)⟩
  · cases found <;> simp [pure, Except.pure]

theorem measured_of_listedInts (hok : listedInts op dtype = .ok tensor) : Measured op tensor := by
  obtain ⟨values, hvalues, hrest⟩ := bind_eq_ok_iff.mp hok
  obtain ⟨elements, helements, hlisted⟩ := bind_eq_ok_iff.mp hrest
  refine measured_of_listed (fun count hcount => ?_) hlisted
  rw [length_of_mapM_eq_ok helements]
  exact length_of_intsArg? (requiredInts_eq_ok_iff.mp hvalues) hcount

theorem shape_of_uniform {shape : Shape} (hok : uniform op shape dtype = .ok tensor) :
    tensor.shape = shape := by
  unfold uniform at hok
  split at hok
  · obtain ⟨value, -, hpure⟩ := bind_eq_ok_iff.mp hok
    rw [← pure_eq_ok_iff.mp hpure]
    rfl
  · obtain ⟨value, -, hrest⟩ := bind_eq_ok_iff.mp hok
    obtain ⟨x, -, hpure⟩ := bind_eq_ok_iff.mp hrest
    rw [← pure_eq_ok_iff.mp hpure]
    rfl

theorem measured_of_tensor (hok : Fill.tensor op = .ok tensor) : Measured op tensor := by
  unfold Fill.tensor at hok
  split at hok
  · obtain ⟨values, hvalues, hrest⟩ := bind_eq_ok_iff.mp hok
    cases values with
    | none => cases hrest
    | some values =>
        exact measured_of_listed (fun count => length_of_singlesArg? hvalues) hrest
  · exact measured_of_listedInts hok
  · exact measured_of_listedInts hok
  · obtain ⟨values, hvalues, hrest⟩ := bind_eq_ok_iff.mp hok
    refine measured_of_listed (fun count hcount => ?_) hrest
    rw [List.length_map]
    exact length_of_intsArg? (requiredInts_eq_ok_iff.mp hvalues) hcount
  · next hkind =>
      obtain ⟨found, hfound, hrest⟩ := bind_eq_ok_iff.mp hok
      obtain ⟨code, -, hrest⟩ := bind_eq_ok_iff.mp hrest
      split at hrest
      · refine ⟨tensor.size_eq, ?_, fun hother => absurd hkind hother⟩
        intro dims hdims
        obtain ⟨hnonneg, rfl⟩ := (Operator.naturalsArg?_eq_ok_iff hdims).mp hfound
        rw [shape_of_uniform hrest]
        exact map_toInt_dims hnonneg
      · cases hrest
  · cases hok

/-- A fill is not refused for a name. -/
abbrev IsNameless {α : Type} (result : Except LoadError α) : Prop :=
  RefusesOnly LoadError.NoConflict result

theorem listed_nameless (data : List dtype.Element) : IsNameless (listed op dtype data) := by
  refine refusesOnly_bind (refusesOnly_bind ?_ fun found _ => ?_) fun shape _ => ?_
  · exact (op.naturalsArg?_properly "shape").mono LoadError.OfReader.noConflict
  · cases found with
    | some dims => exact refusesOnly_ok _
    | none => exact refusesOnly_error trivial
  · split
    · exact refusesOnly_ok _
    · exact refusesOnly_error trivial

theorem requiredInts_nameless (dtype : DType) : IsNameless (requiredInts op dtype) := by
  refine refusesOnly_bind ((op.intsArg?_properly "values").mono LoadError.OfReader.noConflict)
    fun found _ => ?_
  cases found with
  | some values => exact refusesOnly_ok _
  | none => exact refusesOnly_error trivial

theorem exact_nameless (arg : String) (i : Int) : IsNameless (exact op arg dtype i) := by
  unfold exact
  split
  · exact refusesOnly_ok _
  · exact refusesOnly_error trivial

theorem listedInts_nameless (dtype : DType) : IsNameless (listedInts op dtype) :=
  refusesOnly_bind (requiredInts_nameless dtype) fun _ _ =>
    refusesOnly_bind (refusesOnly_mapM fun i _ => exact_nameless "values" i) fun data _ =>
      listed_nameless data

theorem uniform_nameless (shape : Shape) (dtype : DType) :
    IsNameless (uniform op shape dtype) := by
  refine refusesOnly_ite (fun _ => ?_) fun _ => ?_
  · exact refusesOnly_map ((op.numberArg?_properly _).mono LoadError.OfReader.noConflict) _
  · refine refusesOnly_bind ((op.integerArg?_properly _).mono LoadError.OfReader.noConflict)
      fun value _ => ?_
    exact refusesOnly_map (exact_nameless "value" _) _

theorem tensor_nameless (op : Operator) : IsNameless (Fill.tensor op) := by
  unfold Fill.tensor
  split
  · refine refusesOnly_bind ((op.singlesArg?_properly _).mono LoadError.OfReader.noConflict)
      fun values _ => ?_
    cases values with
    | some values => exact @listed_nameless op .f32 values
    | none => exact refusesOnly_error trivial
  · exact listedInts_nameless .i32
  · exact listedInts_nameless .i64
  · exact refusesOnly_bind (requiredInts_nameless .bool) fun values _ => listed_nameless _
  · refine refusesOnly_bind ((op.naturalsArg?_properly _).mono LoadError.OfReader.noConflict)
      fun dims _ => ?_
    refine refusesOnly_bind ((op.intArg_properly _ _).mono LoadError.OfReader.noConflict)
      fun code _ => ?_
    split
    · exact uniform_nameless ..
    · exact refusesOnly_error trivial
  · exact refusesOnly_error trivial

/-! ## Tables -/

/-- An operator fills one tensor, for its one output. -/
structure Yields (op : Operator) (weight : String × Tensor) : Prop where
  outputs : op.outputs = [weight.1]
  tensor : Fill.tensor op = .ok weight.2

/-- Why an operator is refused after some others, in the order in which it is checked. -/
inductive Refuses (before : List Operator) (op : Operator) : LoadError → Prop where
  | tensor {error : LoadError} (htensor : Fill.tensor op = .error error) :
      Refuses before op error
  | outputs {tensor : Tensor} (htensor : Fill.tensor op = .ok tensor)
      (hcount : op.outputs.length ≠ 1) :
      Refuses before op (op.malformed "output"
        s!"fill operators produce one output, got {op.outputs.length}")
  | bound {weight : String × Tensor} (hyields : Yields op weight)
      (hbound : weight.1 ∈ before.flatMap Operator.outputs) :
      Refuses before op (.nameConflict weight.1)

theorem target_eq_ok_iff {name : String} : target op = .ok name ↔ op.outputs = [name] := by
  unfold target
  split
  · next single hsingle => simp [hsingle]
  · next hother =>
      constructor
      · intro herror
        cases herror
      · exact fun hsingle => absurd hsingle (hother name)

theorem target_eq_error_iff {error : LoadError} :
    target op = .error error ↔ op.outputs.length ≠ 1 ∧
      error = op.malformed "output"
        s!"fill operators produce one output, got {op.outputs.length}" := by
  unfold target
  split
  · next hsingle => simp [hsingle]
  · next hother =>
      have hcount : op.outputs.length ≠ 1 := by
        rintro hone
        obtain ⟨name, hname⟩ := List.length_eq_one_iff.mp hone
        exact hother name hname
      simp [hcount, eq_comm]

theorem outputs_of_forall₂_yields {ops : List Operator} {added : List (String × Tensor)}
    (hadded : List.Forall₂ Yields ops added) :
    ops.flatMap Operator.outputs = added.map Prod.fst := by
  induction hadded with
  | nil => rfl
  | cons hyields _ ih => rw [List.flatMap_cons, hyields.outputs, ih, List.map_cons]; rfl

end Fill

namespace WeightTable

variable {table next : WeightTable} {ops : List Operator}

theorem eq_of_entries_eq (hentries : table.entries = next.entries) : table = next := by
  cases table
  cases next
  congr

theorem insert_eq_ok_iff {name : String} {tensor : Tensor} :
    table.insert name tensor = .ok next ↔ next.entries = table.entries ++ [(name, tensor)] := by
  unfold insert
  split
  · next hbound =>
      constructor
      · intro herror
        cases herror
      · intro hentries
        have hdistinct := next.distinct
        rw [hentries, List.map_append, List.nodup_append] at hdistinct
        exact absurd rfl (hdistinct.2.2 name hbound name (by simp))
  · constructor
    · intro hok
      rw [← Except.ok.inj hok]
    · intro hentries
      exact congrArg Except.ok (eq_of_entries_eq hentries.symm)

theorem insert_eq_error_iff {name : String} {tensor : Tensor} {error : LoadError} :
    table.insert name tensor = .error error ↔
      name ∈ table.entries.map Prod.fst ∧ error = .nameConflict name := by
  unfold insert
  split
  · next hbound => simp only [hbound, Except.error.injEq, true_and]; exact eq_comm
  · next hfree => simp [hfree]

theorem addFill_eq_ok_iff {op : Operator} :
    table.addFill op = .ok next ↔
      ∃ weight, Fill.Yields op weight ∧ next.entries = table.entries ++ [weight] := by
  unfold addFill
  simp only [bind_eq_ok_iff, Fill.target_eq_ok_iff, insert_eq_ok_iff]
  constructor
  · rintro ⟨tensor, htensor, name, hname, hentries⟩
    exact ⟨(name, tensor), ⟨hname, htensor⟩, hentries⟩
  · rintro ⟨weight, hyields, hentries⟩
    exact ⟨weight.2, hyields.tensor, weight.1, hyields.outputs, hentries⟩

theorem addFill_eq_error_iff {op : Operator} {before : List Operator} {error : LoadError}
    (hbefore : before.flatMap Operator.outputs = table.entries.map Prod.fst) :
    table.addFill op = .error error ↔ Fill.Refuses before op error := by
  unfold addFill
  constructor
  · intro herror
    rcases htensor : Fill.tensor op with first | tensor <;> rw [htensor] at herror
    · obtain rfl := Except.error.inj herror
      exact .tensor htensor
    · rw [ok_bind] at herror
      rcases hname : Fill.target op with second | name <;> rw [hname] at herror
      · obtain rfl := Except.error.inj herror
        obtain ⟨hcount, rfl⟩ := Fill.target_eq_error_iff.mp hname
        exact .outputs htensor hcount
      · obtain ⟨hbound, rfl⟩ := insert_eq_error_iff.mp herror
        have hyields : Fill.Yields op (name, tensor) := ⟨Fill.target_eq_ok_iff.mp hname, htensor⟩
        exact .bound hyields (hbefore ▸ hbound)
  · intro hrefuses
    cases hrefuses with
    | tensor htensor => rw [htensor, error_bind]
    | outputs htensor hcount =>
        rw [htensor, ok_bind, Fill.target_eq_error_iff.mpr ⟨hcount, rfl⟩, error_bind]
    | bound hyields hbound =>
        rw [hyields.tensor, ok_bind, Fill.target_eq_ok_iff.mpr hyields.outputs, ok_bind]
        exact insert_eq_error_iff.mpr ⟨hbefore ▸ hbound, rfl⟩

/-- Filling succeeds when each operator does, and no name comes twice. -/
theorem foldlM_addFill_eq_ok_iff :
    ops.foldlM addFill table = .ok next ↔
      ∃ added, List.Forall₂ Fill.Yields ops added ∧ next.entries = table.entries ++ added := by
  induction ops generalizing table with
  | nil =>
      constructor
      · intro hok
        obtain rfl := Except.ok.inj hok
        exact ⟨[], .nil, (List.append_nil _).symm⟩
      · rintro ⟨added, hadded, hentries⟩
        obtain rfl := List.forall₂_nil_left_iff.mp hadded
        rw [List.append_nil] at hentries
        exact congrArg Except.ok (eq_of_entries_eq hentries.symm)
  | cons op ops ih =>
      rw [List.foldlM_cons, bind_eq_ok_iff]
      constructor
      · rintro ⟨first, hfirst, hrest⟩
        obtain ⟨weight, hyields, hentries⟩ := addFill_eq_ok_iff.mp hfirst
        obtain ⟨added, hadded, hlast⟩ := ih.mp hrest
        refine ⟨weight :: added, .cons hyields hadded, ?_⟩
        rw [hlast, hentries, List.append_assoc, List.singleton_append]
      · rintro ⟨added, hadded, hentries⟩
        cases hadded with
        | @cons _ weight _ added hyields hadded =>
            have hlast : next.entries = (table.entries ++ [weight]) ++ added := by
              rw [hentries, List.append_assoc, List.singleton_append]
            have hdistinct : ((table.entries ++ [weight]).map Prod.fst).Nodup := by
              have hall := next.distinct
              rw [hlast, List.map_append] at hall
              exact (List.nodup_append.mp hall).1
            exact ⟨⟨table.entries ++ [weight], hdistinct⟩,
              addFill_eq_ok_iff.mpr ⟨weight, hyields, rfl⟩, ih.mpr ⟨added, hadded, hlast⟩⟩

variable {init : NetDefinition}

theorem ofNet_eq_ok_iff :
    ofNet init = .ok table ↔ List.Forall₂ Fill.Yields init.operators table.entries := by
  rw [ofNet, foldlM_addFill_eq_ok_iff]
  constructor
  · rintro ⟨added, hadded, hentries⟩
    rwa [show table.entries = added from hentries]
  · intro hadded
    exact ⟨table.entries, hadded, rfl⟩

theorem exists_ofNet_iff :
    (∃ table, ofNet init = .ok table) ↔
      (∀ op ∈ init.operators, ∃ weight, Fill.Yields op weight) ∧
        (init.operators.flatMap Operator.outputs).Nodup := by
  simp only [ofNet_eq_ok_iff]
  constructor
  · rintro ⟨table, hyields⟩
    rw [Fill.outputs_of_forall₂_yields hyields]
    exact ⟨exists_forall₂_iff.mp ⟨_, hyields⟩, table.distinct⟩
  · rintro ⟨heach, hdistinct⟩
    obtain ⟨entries, hyields⟩ := exists_forall₂_iff.mpr heach
    rw [Fill.outputs_of_forall₂_yields hyields] at hdistinct
    exact ⟨⟨entries, hdistinct⟩, hyields⟩

/-- The first operator that is refused decides the error. -/
theorem ofNet_eq_error_iff {error : LoadError} :
    ofNet init = .error error ↔
      ∃ before op after, init.operators = before ++ op :: after ∧
        (∃ weights, List.Forall₂ Fill.Yields before weights) ∧
        (before.flatMap Operator.outputs).Nodup ∧ Fill.Refuses before op error := by
  rw [ofNet, foldlM_eq_error_iff]
  refine exists_congr fun before => exists_congr fun op => exists_congr fun after => ?_
  constructor
  · rintro ⟨state, hsplit, hbefore, hop⟩
    obtain ⟨weights, hyields, hentries⟩ := foldlM_addFill_eq_ok_iff.mp hbefore
    have hnames : before.flatMap Operator.outputs = state.entries.map Prod.fst := by
      rw [Fill.outputs_of_forall₂_yields hyields, show state.entries = weights from hentries]
    exact ⟨hsplit, ⟨weights, hyields⟩, hnames ▸ state.distinct,
      (addFill_eq_error_iff hnames).mp hop⟩
  · rintro ⟨hsplit, ⟨weights, hyields⟩, hdistinct, hrefuses⟩
    have hnames := Fill.outputs_of_forall₂_yields hyields
    exact ⟨⟨weights, hnames ▸ hdistinct⟩, hsplit,
      foldlM_addFill_eq_ok_iff.mpr ⟨weights, hyields, rfl⟩,
      (addFill_eq_error_iff hnames).mpr hrefuses⟩

theorem get?_eq_some_iff {name : String} {tensor : Tensor} :
    table.get? name = some tensor ↔ (name, tensor) ∈ table.entries :=
  find?_name_eq_some_iff table.distinct

theorem contains_iff {name : String} :
    table.contains name ↔ ∃ tensor, table.get? name = some tensor := by
  simp [contains, get?_eq_some_iff]

/-- A table holds what the operators of its net fill, in their order: each name can be looked
up, also by its place, each tensor has the extents and as many elements as its operator says,
and whole numbers are stored as they are. -/
structure Holds (table : WeightTable) (init : NetDefinition) : Prop where
  yields : List.Forall₂ Fill.Yields init.operators table.entries
  get?_iff : ∀ name tensor, table.get? name = some tensor ↔ (name, tensor) ∈ table.entries
  contains_iff : ∀ name, table.contains name ↔ ∃ tensor, (name, tensor) ∈ table.entries
  placed : table.indexed.Keeps (table.entries.map fun entry => (entry.1, entry.2.storage))
  placed_get?_iff : ∀ name storage, table.indexed.get? name = some storage ↔
    (name, storage) ∈ table.entries.map fun entry => (entry.1, entry.2.storage)
  placed_contains_iff : ∀ name, table.indexed.contains name = true ↔ table.contains name = true
  measured : List.Forall₂ (fun op weight => Fill.Measured op weight.2)
    init.operators table.entries
  whole : List.Forall₂ (fun op weight => ∀ dims dtype payload, Fill.Asks op dims dtype payload →
    payload.Fits dtype dims ∧ payload.StoredIn dtype dims weight.2) init.operators table.entries

/-- An init net has a table exactly when each of its operators fills one tensor for one output
and no two outputs share a name, and the table then holds what the operators fill.  Whole
numbers are filled in exactly when they fit.  Otherwise the first operator that is refused
decides the error.  In words the table and the error are the same when the elements that each
operator asks for can be counted in a word. -/
theorem ofNet_holds (init : NetDefinition) :
    ((∃ table, ofNet init = .ok table) ↔
      (∀ op ∈ init.operators, ∃ weight, Fill.Yields op weight) ∧
        (init.operators.flatMap Operator.outputs).Nodup) ∧
    (∀ table, ofNet init = .ok table → table.Holds init) ∧
    (∀ op dims dtype payload, Fill.Asks op dims dtype payload →
      ((∃ tensor, Fill.tensor op = .ok tensor) ↔ payload.Fits dtype dims)) ∧
    (∀ error, ofNet init = .error error ↔
      ∃ before op after, init.operators = before ++ op :: after ∧
        (∃ weights, List.Forall₂ Fill.Yields before weights) ∧
        (before.flatMap Operator.outputs).Nodup ∧ Fill.Refuses before op error) ∧
    (∀ bits, (∀ op ∈ init.operators, Fill.FitsWords bits op) →
      ofNetInWords bits init = indexed <$> ofNet init) := by
  refine ⟨exists_ofNet_iff, fun table hok => ?_, fun op dims dtype payload hasks =>
    (Fill.tensor_whole hasks).1, fun error => ofNet_eq_error_iff, fun bits => ofNetInWords_eq⟩
  have hyields := ofNet_eq_ok_iff.mp hok
  constructor
  · exact hyields
  · exact fun _ _ => get?_eq_some_iff
  · intro name
    simp only [WeightTable.contains_iff, get?_eq_some_iff]
  · exact table.indexed_keeps
  · exact fun name storage => table.indexed_keeps.get?_iff
  · intro name
    rw [table.indexed_keeps.contains_iff, WeightTable.contains_iff]
    simp [get?_eq_some_iff]
  · exact hyields.imp fun op weight hyields => Fill.measured_of_tensor hyields.tensor
  · refine hyields.imp fun op weight hyields dims dtype payload hasks => ?_
    obtain ⟨hfits, hstored⟩ := Fill.tensor_whole hasks
    exact ⟨hfits.mp ⟨_, hyields.tensor⟩, hstored _ hyields.tensor⟩

/-- An operator that fills three elements of eight bits with one value. -/
def signedFill (value : Int64) : Operator :=
  ⟨"ConstantFill", [], ["b"], none,
    ⟨[("dtype", .int 7), ("shape", .ints [3]), ("value", .int value)],
      by
        refine (List.pairwise_map (f := Prod.fst)).mp ?_
        change List.Pairwise _ ["dtype", "shape", "value"]
        decide⟩⟩

/-- An operator that lists the least and the greatest number of 64 bits. -/
def boundaryFill : Operator :=
  ⟨"GivenTensorInt64Fill", [], ["n"], some "boundary",
    ⟨[("shape", .ints [2, 1]), ("values", .ints [Int64.minValue, Int64.maxValue])],
      List.pairwise_pair.mpr (by decide)⟩⟩

/-- The weights of both operators, with the least number of eight bits. -/
def boundaryWeights : NetDefinition where
  name := "boundary"
  operators := [signedFill (-128), boundaryFill]
  externalInputs := []
  externalOutputs := ["b", "n"]

theorem asks_signedFill (value : Int64) :
    Fill.Asks (signedFill value) [3] .i8 (.uniform value) :=
  .uniform rfl (.inl rfl) rfl rfl rfl rfl

theorem asks_boundaryFill :
    Fill.Asks boundaryFill [2, 1] .i64 (.listed [Int64.minValue, Int64.maxValue]) :=
  .listed (.inr ⟨rfl, rfl⟩) rfl rfl

theorem boundaryWeights_holds :
    (∃ table, ofNet boundaryWeights = .ok table ∧ table.Holds boundaryWeights ∧
      ofNetInWords 64 boundaryWeights = .ok table.indexed) ∧
      ¬∃ tensor, Fill.tensor (signedFill 128) = .ok tensor := by
  obtain ⟨hexists, hholds, hwhole, -, hwords⟩ := ofNet_holds boundaryWeights
  constructor
  · obtain ⟨signed, hsigned⟩ := (hwhole _ _ _ _ (asks_signedFill (-128))).mpr
      ⟨List.forall_mem_singleton.mpr (by decide), rfl,
        List.forall_mem_singleton.mpr ⟨_, rfl, by decide⟩⟩
    obtain ⟨boundary, hboundary⟩ := (hwhole _ _ _ _ asks_boundaryFill).mpr
      ⟨List.forall_mem_cons.mpr ⟨by decide, List.forall_mem_singleton.mpr (by decide)⟩, rfl,
        List.forall_mem_cons.mpr ⟨⟨_, rfl, by decide⟩,
          List.forall_mem_singleton.mpr ⟨_, rfl, by decide⟩⟩⟩
    have heach : ∀ op ∈ boundaryWeights.operators, ∃ weight, Fill.Yields op weight := by
      intro op hop
      rcases List.mem_pair.mp hop with rfl | rfl
      · exact ⟨("b", signed), rfl, hsigned⟩
      · exact ⟨("n", boundary), rfl, hboundary⟩
    obtain ⟨table, htable⟩ := hexists.mpr ⟨heach, by decide⟩
    have hcounts : ∀ op ∈ boundaryWeights.operators, Fill.FitsWords 64 op := by
      intro op hop found hfound
      rcases List.mem_pair.mp hop with rfl | rfl
      · obtain rfl : some [3] = found := Except.ok.inj hfound
        decide
      · obtain rfl : some [2, 1] = found := Except.ok.inj hfound
        decide
    have hinWords := hwords 64 hcounts
    rw [htable] at hinWords
    exact ⟨table, htable, hholds table htable, hinWords⟩
  · intro hfilled
    have hfits := (hwhole _ _ _ _ (asks_signedFill 128)).mp hfilled
    obtain ⟨range, hrange, hmem⟩ := hfits.inRange 128 (List.mem_singleton_self _)
    obtain rfl := Option.some.inj hrange
    exact absurd hmem (by decide)

/-- An operator that lists no numbers for as many elements as there are words. -/
def wideFill : Operator :=
  ⟨"GivenTensorIntFill", [], ["w"], none,
    ⟨[("shape", .ints [4294967296, 4294967296]), ("values", .ints [])],
      List.pairwise_pair.mpr (by decide)⟩⟩

/-- In words the count of the elements that are asked for is cut to none, and a weight of no
elements is stored for them. -/
theorem wideFill_stores_nothing :
    ¬(Fill.Payload.listed []).Fits .i32 [4294967296, 4294967296] ∧
      Fill.Asks wideFill [4294967296, 4294967296] .i32 (.listed []) ∧
      ∃ table, ofNetInWords 64 ⟨"wide", [wideFill], [], ["w"]⟩ = .ok table ∧
        table.entries = #[("w", ⟨.i32, ⟨[4294967296, 4294967296]⟩, #[]⟩)] := by
  refine ⟨fun hfits => absurd hfits.count (by decide), .listed (.inl ⟨rfl, rfl⟩) rfl rfl, ?_⟩
  have hstored : Fill.tensorInWords 64 wideFill = .ok ⟨.i32, ⟨[4294967296, 4294967296]⟩, #[]⟩ := by
    simp only [Fill.tensorInWords, wideFill]
    rfl
  have hfilled : addFillInWords 64 .empty wideFill =
      .ok (.push .empty "w" ⟨.i32, ⟨[4294967296, 4294967296]⟩, #[]⟩) := by
    rw [addFillInWords, hstored]
    exact PlacedEntries.keeps_empty.insert_of_fresh List.not_mem_nil _
  have htable : ofNetInWords 64 ⟨"wide", [wideFill], [], ["w"]⟩ =
      .ok (.push .empty "w" ⟨.i32, ⟨[4294967296, 4294967296]⟩, #[]⟩) := by
    rw [ofNetInWords, List.foldlM_cons, hfilled]
    rfl
  exact ⟨_, htable, rfl⟩

end WeightTable
end NetImport
