import NetImport.Kernel.Check
import NetImport.Kernel.Storage
import NetImport.Proofs.Sequencing

/-!
# What the checks of a kernel ask for

Each check passes exactly when the types agree, and none of them looks at the elements.
What the kernels share is stated here once: a kernel fills its output, whatever that held
before, and its contract adds the output types that it accepts.
-/

namespace NetImport

namespace Tensor

theorem exists_elements?_iff {tensor : Tensor} {dtype : DType} :
    (∃ elements, tensor.elements? dtype = some elements) ↔ tensor.dtype = dtype := by
  by_cases hdtype : tensor.dtype = dtype <;> simp [elements?, hdtype]

theorem size_of_elements? {tensor : Tensor} {dtype : DType} {elements : Array dtype.Element}
    (helements : tensor.elements? dtype = some elements) :
    elements.size = tensor.shape.count := by
  obtain ⟨own, shape, data, hsize⟩ := tensor
  unfold elements? at helements
  split at helements
  · next hdtype =>
      subst hdtype
      obtain rfl := Option.some.inj helements
      exact hsize
  · cases helements

theorem type_eq_iff {lhs rhs : Tensor} :
    lhs.type = rhs.type ↔ lhs.dtype = rhs.dtype ∧ lhs.shape = rhs.shape := by
  simp [type]

theorem ofArray_eq_ok_iff {dtype : DType} {shape : Shape} {data : Array dtype.Element}
    {tensor : Tensor} :
    ofArray dtype shape data = .ok tensor ↔
      ∃ hsize : data.size = shape.count, tensor = ⟨dtype, shape, data, hsize⟩ := by
  unfold ofArray
  split
  · next hsize => simp [hsize, eq_comm]
  · next hsize => simp [hsize]

theorem exists_ofArray_iff {dtype : DType} {shape : Shape} {data : Array dtype.Element} :
    (∃ tensor, ofArray dtype shape data = .ok tensor) ↔ data.size = shape.count := by
  simp only [ofArray_eq_ok_iff]
  exact ⟨fun ⟨_, hsize, _⟩ => hsize, fun hsize => ⟨_, hsize, rfl⟩⟩

theorem ofArray_eq_tabulate (dtype : DType) (shape : Shape) (f : List Nat → dtype.Element) :
    ofArray dtype shape (shape.coordinates.map f).toArray = .ok (tabulate dtype shape f) :=
  ofArray_eq_ok_iff.mpr ⟨by simp, rfl⟩

/-- Elements that are computed one by one, none of which ends in a stop. -/
theorem tabulate_of_mapM {dtype : DType} {shape : Shape}
    {step : List Nat → Except InPlace.Stop dtype.Element} {f : List Nat → dtype.Element}
    (hstep : ∀ coords ∈ shape.coordinates, step coords = .ok (f coords)) :
    (shape.coordinates.mapM step >>= fun values =>
      (liftM (ofArray dtype shape values.toArray) : Except InPlace.Stop Tensor)) =
        liftM (.ok (tabulate dtype shape f) : Except TensorError Tensor) := by
  rw [mapM_eq_ok_map hstep, ok_bind, ofArray_eq_tabulate]

theorem type_of_ofArray {dtype : DType} {shape : Shape} {data : Array dtype.Element}
    {tensor : Tensor} (hmade : ofArray dtype shape data = .ok tensor) :
    tensor.type = ⟨dtype, shape⟩ := by
  obtain ⟨hsize, rfl⟩ := ofArray_eq_ok_iff.mp hmade
  rfl

/-- Tensors without elements differ in their types only. -/
theorem eq_of_type_of_count_eq_zero {lhs rhs : Tensor} (htype : lhs.type = rhs.type)
    (hcount : lhs.shape.count = 0) :
    lhs = rhs := by
  obtain ⟨dtype, shape, data, hsize⟩ := lhs
  obtain ⟨dtype', shape', data', hsize'⟩ := rhs
  obtain ⟨rfl, rfl⟩ := type_eq_iff.mp htype
  have hempty : data = #[] := Array.eq_empty_of_size_eq_zero (hsize.trans hcount)
  have hempty' : data' = #[] := Array.eq_empty_of_size_eq_zero (hsize'.trans hcount)
  subst hempty hempty'
  rfl

end Tensor

namespace Kernel

@[simp] theorem requireShape_eq_ok_iff {op : String} {expected actual : Shape} {u : Unit} :
    requireShape op expected actual = .ok u ↔ expected = actual := by
  unfold requireShape
  split <;> simp_all

@[simp] theorem requireSameDType_eq_ok_iff {op : String} {lhs rhs : DType} {u : Unit} :
    requireSameDType op lhs rhs = .ok u ↔ lhs = rhs := by
  unfold requireSameDType
  split <;> simp_all

theorem requireSingle_eq_ok_iff {op : String} {tensor : Tensor} {elements : Array Float32} :
    requireSingle op tensor = .ok elements ↔ tensor.elements? .f32 = some elements := by
  unfold requireSingle
  cases tensor.elements? .f32 <;> simp

@[simp] theorem exists_requireSingle_iff {op : String} {tensor : Tensor} :
    (∃ elements, requireSingle op tensor = .ok elements) ↔ tensor.dtype = .f32 := by
  simp only [requireSingle_eq_ok_iff]
  exact @Tensor.exists_elements?_iff tensor .f32

theorem dtype_of_requireSingle {op : String} {tensor : Tensor} {elements : Array Float32}
    (hrequired : requireSingle op tensor = .ok elements) :
    tensor.dtype = .f32 :=
  exists_requireSingle_iff.mp ⟨elements, hrequired⟩

theorem size_of_requireSingle {op : String} {tensor : Tensor} {elements : Array Float32}
    (hrequired : requireSingle op tensor = .ok elements) :
    elements.size = tensor.shape.count :=
  Tensor.size_of_elements? (requireSingle_eq_ok_iff.mp hrequired)

/-- A kernel that only asks whether a tensor holds 32-bit numbers asks for its type. -/
theorem requireSingle_bind_const {α : Type} (op : String) (tensor : Tensor)
    (rest : Except TensorError α) :
    (requireSingle op tensor >>= fun _ => rest) =
      if tensor.dtype = .f32 then rest else .error (.unsupportedDType op tensor.dtype) := by
  by_cases hdtype : tensor.dtype = .f32
  · obtain ⟨elements, helements⟩ := (@exists_requireSingle_iff op tensor).mpr hdtype
    rw [helements, ok_bind, if_pos hdtype]
  · simp [requireSingle, Tensor.elements?, hdtype]

/-- A kernel writes the whole of its output: the result has the type of the output, and
the elements that the output held before play no part. -/
structure FillsOutput (kernel : Tensor → Except TensorError Tensor) : Prop where
  keepsType : ∀ {output result : Tensor}, kernel output = .ok result →
    result.type = output.type
  ignoresContents : ∀ {output output' : Tensor}, output.type = output'.type →
    kernel output = kernel output'

/-- A kernel fills its output and accepts exactly the outputs of some types. -/
structure Contract (kernel : Tensor → Except TensorError Tensor)
    (accepts : TensorType → Prop) : Prop extends FillsOutput kernel where
  accepted_iff : ∀ {output : Tensor},
    (∃ result, kernel output = .ok result) ↔ accepts output.type

theorem FillsOutput.again {kernel : Tensor → Except TensorError Tensor}
    (hkernel : FillsOutput kernel) {output result : Tensor} (hresult : kernel output = .ok result) :
    kernel (Tensor.zeros result.dtype result.shape) = .ok result := by
  have htype : result.type = output.type := hkernel.keepsType hresult
  have hzeros : (Tensor.zeros result.dtype result.shape).type = output.type := htype
  rw [hkernel.ignoresContents hzeros, hresult]

theorem FillsOutput.bind {α : Type} {read : Except TensorError α}
    {kernel : α → Tensor → Except TensorError Tensor}
    (hkernel : ∀ value, FillsOutput (kernel value)) :
    FillsOutput fun output => read >>= fun value => kernel value output := by
  constructor
  · intro output result hdone
    obtain ⟨value, -, hvalue⟩ := bind_eq_ok_iff.mp hdone
    exact (hkernel value).keepsType hvalue
  · intro output output' htype
    exact bind_congr fun value => (hkernel value).ignoresContents htype

end Kernel
end NetImport
