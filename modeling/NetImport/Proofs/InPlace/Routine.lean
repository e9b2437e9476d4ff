import NetImport.Kernel.Storage
import NetImport.Proofs.Kernel.Check

/-!
# Routines that work in place

A kernel maps the tensor that it is to fill to its result.  A routine reaches the same
result in the storage of that tensor, one write after the other, and what it has written
stays there when it stops.  It stops when it refuses its operands, or at a fault: a place
outside a buffer, a slice that ends before it begins, a division by zero, or elements
that are read as elements of another type.
-/

namespace NetImport
namespace InPlace

/-- A computation on a state that keeps its last value when the computation stops. -/
abbrev Routine (σ α : Type) := EStateM Stop σ α

instance {σ : Type} : MonadLift (Except Stop) (EStateM Stop σ) where
  monadLift
    | .ok value => pure value
    | .error stop => throw stop

variable {α β σ : Type}

/-! ## Reads -/

def load (buffer : Array α) (position : Nat) : Except Stop α := orFault buffer[position]?

def entry (entries : List α) (index : Nat) : Except Stop α := orFault entries[index]?

def cut (buffer : Array α) (start stop : Nat) : Except Stop (Array α) :=
  if start ≤ stop ∧ stop ≤ buffer.size then .ok (buffer.extract start stop)
  else .error .fault

def divide (dividend divisor : Nat) : Except Stop Nat :=
  if divisor = 0 then .error .fault else .ok (dividend / divisor)

def remainder (dividend divisor : Nat) : Except Stop Nat :=
  if divisor = 0 then .error .fault else .ok (dividend % divisor)

/-! ## Writes -/

def store (position : Nat) (value : α) : Routine (Array α) Unit := fun buffer =>
  if h : position < buffer.size then .ok () (buffer.set position value h)
  else .error .fault buffer

def update (position : Nat) (f : α → α) : Routine (Array α) Unit := do
  let old ← load (← get) position
  store position (f old)

/-- Copies values into the places from `start` to `stop`, which must be as many. -/
def overwrite (start stop : Nat) (values : Array α) : Routine (Array α) Unit := fun buffer =>
  if start ≤ stop ∧ stop ≤ buffer.size ∧ values.size = stop - start then
    .ok () (buffer.extract 0 start ++ values ++ buffer.extract stop)
  else .error .fault buffer

/-! ## The storage of a tensor -/

/-- Works on the elements of a storage, which must have the given type. -/
def onElements (dtype : DType) (mismatch : DType → Stop)
    (body : Routine (Array dtype.Element) Unit) : Routine Storage Unit := fun storage =>
  if h : storage.dtype = dtype then
    match body (h ▸ storage.data) with
    | .ok _ data => .ok () ⟨dtype, storage.shape, data⟩
    | .error stop data => .error stop ⟨dtype, storage.shape, data⟩
  else .error (mismatch storage.dtype) storage

/-- Works on 32-bit numbers; elements of another type are a fault. -/
def onSingles (body : Routine (Array Float32) Unit) : Routine Storage Unit :=
  onElements .f32 (fun _ => .fault) body

/-- Works on elements of a type; a storage of another type is refused. -/
def onTyped (op : String) (dtype : DType) (body : Routine (Array dtype.Element) Unit) :
    Routine Storage Unit :=
  onElements dtype (fun own => .refused (.dtypeMismatch op dtype own)) body

def singles (tensor : Tensor) : Except Stop (Array Float32) := orFault (tensor.elements? .f32)

def typed (op : String) (dtype : DType) (tensor : Tensor) :
    Except TensorError (Array dtype.Element) :=
  match tensor.elements? dtype with
  | some elements => .ok elements
  | none => .error (.dtypeMismatch op dtype tensor.dtype)

def refuse (reason : TensorError) : Routine σ Unit := throw (.refused reason)

def requireSingleDType (op : String) (dtype : DType) : Except TensorError Unit :=
  if dtype = .f32 then .ok () else .error (.unsupportedDType op dtype)

/-! ## What the reads give -/

/-- A computation that is lifted goes on as before where every next step is lifted too. -/
theorem liftM_bind_eq {x : Except TensorError α} {f : α → Except Stop β}
    {g : α → Except TensorError β} (hsteps : ∀ a, x = .ok a → f a = liftM (g a)) :
    ((liftM x : Except Stop α) >>= f) = liftM (x >>= g) := by
  cases x with
  | error reason => rfl
  | ok a => exact hsteps a rfl

theorem load_eq_ok {buffer : Array α} {position : Nat} {value : α}
    (hvalue : buffer[position]? = some value) : load buffer position = .ok value := by
  rw [load, hvalue, orFault]

theorem load_eq_ok_getD {buffer : Array α} {position : Nat} (fallback : α)
    (hposition : position < buffer.size) :
    load buffer position = .ok (buffer.getD position fallback) := by
  apply load_eq_ok
  simp [hposition]

theorem entry_eq_ok {entries : List α} {index : Nat} {value : α}
    (hvalue : entries[index]? = some value) : entry entries index = .ok value := by
  rw [entry, hvalue, orFault]

@[simp] theorem entry_first (a : α) (rest : List α) : entry (a :: rest) 0 = .ok a :=
  rfl

@[simp] theorem entry_second (a b : α) (rest : List α) : entry (a :: b :: rest) 1 = .ok b :=
  rfl

@[simp] theorem entry_third (a b c : α) (rest : List α) :
    entry (a :: b :: c :: rest) 2 = .ok c :=
  rfl

@[simp] theorem entry_fourth (a b c d : α) (rest : List α) :
    entry (a :: b :: c :: d :: rest) 3 = .ok d :=
  rfl

theorem cut_eq_ok {buffer : Array α} {start stop : Nat} (horder : start ≤ stop)
    (hsize : stop ≤ buffer.size) : cut buffer start stop = .ok (buffer.extract start stop) :=
  if_pos ⟨horder, hsize⟩

theorem size_extract_row {buffer : Array α} {row width : Nat}
    (hinside : (row + 1) * width ≤ buffer.size) :
    (buffer.extract (row * width) ((row + 1) * width)).size = width := by
  rw [Array.size_extract, Nat.min_eq_left hinside, Nat.succ_mul, Nat.add_sub_cancel_left]

theorem toList_extract {buffer : Array α} {start width : Nat} (fallback : α)
    (hsize : start + width ≤ buffer.size) :
    (buffer.extract start (start + width)).toList =
      (List.range width).map fun i => buffer.getD (start + i) fallback := by
  apply List.ext_getElem
  · simp
    omega
  · intro i hi hi'
    have hbound : start + i < buffer.size := by
      have hwidth : i < width := by simpa using hi'
      omega
    simp [hbound]

theorem divide_eq_ok {dividend divisor : Nat} (hdivisor : divisor ≠ 0) :
    divide dividend divisor = .ok (dividend / divisor) :=
  if_neg hdivisor

theorem remainder_eq_ok {dividend divisor : Nat} (hdivisor : divisor ≠ 0) :
    remainder dividend divisor = .ok (dividend % divisor) :=
  if_neg hdivisor

/-! ## How a sequence of steps ends -/

theorem bind_apply_of_ok {routine : Routine σ α} {rest : α → Routine σ β} {state next : σ}
    {value : α} (hdone : routine state = .ok value next) :
    (routine >>= rest) state = rest value next := by
  change EStateM.bind routine rest state = _
  rw [EStateM.bind, hdone]

theorem bind_apply_of_error {routine : Routine σ α} {rest : α → Routine σ β}
    {state left : σ} {stop : Stop} (hstop : routine state = .error stop left) :
    (routine >>= rest) state = .error stop left := by
  change EStateM.bind routine rest state = _
  rw [EStateM.bind, hstop]

@[simp] theorem get_bind_apply (rest : σ → Routine σ β) (state : σ) :
    (get >>= rest) state = rest state state :=
  rfl

@[simp] theorem read_ok_bind_apply (value : α) (rest : α → Routine σ β) (state : σ) :
    ((liftM (.ok value : Except Stop α) : Routine σ α) >>= rest) state = rest value state :=
  rfl

@[simp] theorem check_ok_bind_apply (value : α) (rest : α → Routine σ β) (state : σ) :
    ((liftM (.ok value : Except TensorError α) : Routine σ α) >>= rest) state =
      rest value state :=
  rfl

/-! ## Routines and kernels -/

/-- How a routine ends on the storage of an output for which the kernel has this result. -/
def ending (output : Tensor) : Except TensorError Tensor → EStateM.Result Stop Storage Unit
  | .ok result => .ok () result.storage
  | .error reason => .error (.refused reason) output.storage

/-- A routine leaves the result of the kernel in the storage of the output, and does not
touch the storage where the kernel refuses. -/
def Realizes (routine : Routine Storage Unit) (kernel : Tensor → Except TensorError Tensor) :
    Prop :=
  ∀ output : Tensor, routine output.storage = ending output (kernel output)

section Steps

variable {output : Tensor} {dtype : DType}

/-- A check that routine and kernel make before anything else. -/
theorem check_step {check : Except TensorError α} {work : α → Routine Storage Unit}
    {rest : α → Except TensorError Tensor}
    (hrest : ∀ value, check = .ok value →
      work value output.storage = ending output (rest value)) :
    ((liftM check : Routine Storage α) >>= work) output.storage =
      ending output (check >>= rest) := by
  cases hcheck : check with
  | error reason => rfl
  | ok value => exact hrest value hcheck

theorem shape_step {op : String} {expected actual : Shape} {work : Routine Storage Unit}
    {rest : Except TensorError Tensor}
    (hrest : expected = actual → work output.storage = ending output rest) :
    ((liftM (Kernel.requireShape op expected actual) : Routine Storage Unit) >>= fun _ => work)
        output.storage =
      ending output (Kernel.requireShape op expected actual >>= fun _ => rest) :=
  check_step fun _ hshape => hrest (Kernel.requireShape_eq_ok_iff.mp hshape)

theorem dtype_step {op : String} {lhs rhs : DType} {work : Routine Storage Unit}
    {rest : Except TensorError Tensor}
    (hrest : lhs = rhs → work output.storage = ending output rest) :
    ((liftM (Kernel.requireSameDType op lhs rhs) : Routine Storage Unit) >>= fun _ => work)
        output.storage =
      ending output (Kernel.requireSameDType op lhs rhs >>= fun _ => rest) :=
  check_step fun _ hdtype => hrest (Kernel.requireSameDType_eq_ok_iff.mp hdtype)

theorem exists_elements_of_requireSingleDType {op : String} {tensor : Tensor} {u : Unit}
    (hdtype : requireSingleDType op tensor.dtype = .ok u) :
    ∃ elements, tensor.elements? .f32 = some elements ∧
      Kernel.requireSingle op tensor = .ok elements := by
  have hsingle : tensor.dtype = .f32 := by
    by_contra hother
    rw [requireSingleDType, if_neg hother] at hdtype
    cases hdtype
  obtain ⟨elements, helements⟩ := Tensor.exists_elements?_iff.mpr hsingle
  exact ⟨elements, helements, Kernel.requireSingle_eq_ok_iff.mpr helements⟩

theorem requireSingle_bind (op : String) (tensor : Tensor)
    (rest : Array Float32 → Except TensorError α) :
    Kernel.requireSingle op tensor >>= rest =
      requireSingleDType op tensor.dtype >>= fun _ => Kernel.requireSingle op tensor >>= rest := by
  by_cases hdtype : tensor.dtype = .f32
  · rw [requireSingleDType, if_pos hdtype, ok_bind]
  · simp [Kernel.requireSingle, Tensor.elements?, requireSingleDType, hdtype]

/-- A kernel that asks for 32-bit numbers takes them at once, a routine takes them later. -/
theorem requireSingle_step (op : String) (tensor : Tensor) {work : Routine Storage Unit}
    {rest : Array Float32 → Except TensorError Tensor}
    (hrest : ∀ elements, tensor.elements? .f32 = some elements →
      work output.storage = ending output (rest elements)) :
    ((liftM (requireSingleDType op tensor.dtype) : Routine Storage Unit) >>= fun _ => work)
        output.storage =
      ending output (Kernel.requireSingle op tensor >>= rest) := by
  rw [requireSingle_bind]
  apply check_step
  intro _ hdtype
  obtain ⟨elements, helements, hrequired⟩ := exists_elements_of_requireSingleDType hdtype
  rw [hrequired, ok_bind]
  exact hrest elements helements

theorem singles_eq_ok {tensor : Tensor} {elements : Array Float32}
    (helements : tensor.elements? .f32 = some elements) : singles tensor = .ok elements := by
  rw [singles, helements, orFault]

theorem typed_eq_ok {op : String} {tensor : Tensor} {elements : Array dtype.Element}
    (helements : tensor.elements? dtype = some elements) :
    typed op dtype tensor = .ok elements := by
  rw [typed, helements]

@[simp] theorem Tensor.elements?_own (tensor : Tensor) :
    tensor.elements? tensor.dtype = some tensor.data := by
  simp [Tensor.elements?]

theorem onElements_ending {mismatch : DType → Stop}
    {body : Routine (Array dtype.Element) Unit} {target : Array dtype.Element}
    (hdtype : output.dtype = dtype) (hsize : target.size = output.shape.count)
    (hbody : ∀ elements : Array dtype.Element, elements.size = target.size →
      body elements = .ok () target) :
    onElements dtype mismatch body output.storage =
      ending output (Tensor.ofArray dtype output.shape target) := by
  obtain ⟨own, shape, data, hdata⟩ := output
  obtain rfl : own = dtype := hdtype
  have hdone := hbody data (hdata.trans hsize.symm)
  simp [onElements, Tensor.storage, hdone, Tensor.ofArray, hsize, ending]

theorem onTyped_ending {op : String} {body : Routine (Array dtype.Element) Unit}
    {target : Array dtype.Element} (hsize : target.size = output.shape.count)
    (hbody : ∀ elements : Array dtype.Element, elements.size = target.size →
      body elements = .ok () target) :
    onTyped op dtype body output.storage =
      ending output (Kernel.requireSameDType op dtype output.dtype >>= fun _ =>
        Tensor.ofArray dtype output.shape target) := by
  by_cases hdtype : output.dtype = dtype
  · rw [Kernel.requireSameDType, if_pos hdtype.symm, ok_bind]
    exact onElements_ending hdtype hsize hbody
  · rw [Kernel.requireSameDType, if_neg (Ne.symm hdtype), error_bind]
    exact dif_neg hdtype

end Steps

end InPlace
end NetImport
