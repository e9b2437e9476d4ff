import NetImport.Kernel.Elementwise
import NetImport.Proofs.InPlace.Blocks

/-!
# Elementwise routines

One loop passes over output and operands together and ends with the shortest of them.
-/

namespace NetImport
namespace InPlace

variable {α β γ : Type}

/-- Puts the image of each element of an operand into the same place. -/
def mapInto (f : β → α) (operand : Array β) : Routine (Array α) Unit := do
  let buffer ← get
  (List.range (min buffer.size operand.size)).forM fun i => do
    let x ← load operand i
    store i (f x)

def zipInto (f : β → γ → α) (lhs : Array β) (rhs : Array γ) : Routine (Array α) Unit := do
  let buffer ← get
  (List.range (min (min buffer.size lhs.size) rhs.size)).forM fun i => do
    let x ← load lhs i
    let y ← load rhs i
    store i (f x y)

def unary (op : UnaryOp) (input : Tensor) : Routine Storage Unit := do
  let output ← get
  requireSingleDType op.label input.dtype
  requireSingleDType op.label output.dtype
  Kernel.requireShape op.label input.shape output.shape
  let x ← singles input
  onSingles (mapInto op.apply x)

def arithmetic (op : ArithmeticOp) (lhs rhs : Tensor) : Routine Storage Unit := do
  let output ← get
  requireSingleDType op.label lhs.dtype
  requireSingleDType op.label rhs.dtype
  requireSingleDType op.label output.dtype
  Kernel.requireShape op.label lhs.shape rhs.shape
  Kernel.requireShape op.label lhs.shape output.shape
  let x ← singles lhs
  let y ← singles rhs
  onSingles (zipInto op.apply x y)

def clip (input : Tensor) (low high : Float) : Routine Storage Unit := do
  let output ← get
  Kernel.requireSameDType "clip" input.dtype output.dtype
  Kernel.requireShape "clip" input.shape output.shape
  if low > high then
    refuse (.invalidArgument "clip"
      s!"min {Decimal.doubleText low} is greater than max {Decimal.doubleText high}")
  else if input.dtype = .bool then refuse (.unsupportedDType "clip" .bool)
  else
    let dtype := input.dtype
    onTyped "clip" dtype
      (mapInto (dtype.clamp (dtype.ofFloat low) (dtype.ofFloat high)) input.data)

def isNaN (input : Tensor) : Routine Storage Unit := do
  let output ← get
  requireSingleDType "is_nan" input.dtype
  Kernel.requireShape "is_nan" input.shape output.shape
  onTyped "is_nan" .bool do
    let x ← singles input
    mapInto Float32.isNaN x

/-! ## What the loops leave -/

theorem mapInto_run {f : β → α} {operand : Array β} {buffer : Array α}
    (hsize : buffer.size = operand.size) :
    mapInto f operand buffer = .ok () (operand.map f) := by
  have htarget : min buffer.size operand.size = (operand.map f).size := by
    rw [hsize, Nat.min_self, Array.size_map]
  rw [mapInto, get_bind_apply, htarget]
  apply forM_range_eq_target (hsize.trans Array.size_map.symm)
  intro i value hvalue
  rw [Array.getElem?_map] at hvalue
  obtain ⟨x, hx, rfl⟩ := Option.map_eq_some_iff.mp hvalue
  exact Fills.read_ok (load_eq_ok hx) (Fills.store i (f x))

theorem zipInto_run {f : β → γ → α} {lhs : Array β} {rhs : Array γ} {buffer : Array α}
    (hlhs : buffer.size = lhs.size) (hrhs : lhs.size = rhs.size) :
    zipInto f lhs rhs buffer = .ok () (Array.zipWith f lhs rhs) := by
  have hzip : (Array.zipWith f lhs rhs).size = lhs.size := by
    rw [Array.size_zipWith, hrhs, Nat.min_self]
  have htarget : min (min buffer.size lhs.size) rhs.size = (Array.zipWith f lhs rhs).size := by
    rw [hlhs, Nat.min_self, hzip, hrhs, Nat.min_self]
  rw [zipInto, get_bind_apply, htarget]
  apply forM_range_eq_target (hlhs.trans hzip.symm)
  intro i value hvalue
  obtain ⟨x, y, hx, hy, rfl⟩ := Array.getElem?_zipWith_eq_some.mp hvalue
  exact Fills.read_ok (load_eq_ok hx) (Fills.read_ok (load_eq_ok hy) (Fills.store i (f x y)))

/-! ## Routines and kernels -/

theorem unary_realizes (op : UnaryOp) (input : Tensor) :
    Realizes (unary op input) (Kernel.unary op input) := by
  intro output
  rw [unary, get_bind_apply]
  apply requireSingle_step
  intro x hx
  apply requireSingle_step
  intro y hy
  apply shape_step
  intro (hshape : input.shape = output.shape)
  have hsize : (x.map op.apply).size = output.shape.count := by
    rw [Array.size_map, Tensor.size_of_elements? hx, hshape]
  rw [singles_eq_ok hx, read_ok_bind_apply]
  apply onElements_ending (Tensor.exists_elements?_iff.mp ⟨y, hy⟩) hsize
  intro elements helements
  exact mapInto_run (helements.trans Array.size_map)

theorem arithmetic_realizes (op : ArithmeticOp) (lhs rhs : Tensor) :
    Realizes (arithmetic op lhs rhs) (Kernel.arithmetic op lhs rhs) := by
  intro output
  rw [arithmetic, get_bind_apply]
  apply requireSingle_step
  intro x hx
  apply requireSingle_step
  intro y hy
  apply requireSingle_step
  intro z hz
  apply shape_step
  intro hoperands
  apply shape_step
  intro (hshape : lhs.shape = output.shape)
  have hxy : x.size = y.size := by
    rw [Tensor.size_of_elements? hx, Tensor.size_of_elements? hy, hoperands]
  have hzip : (Array.zipWith op.apply x y).size = x.size := by
    rw [Array.size_zipWith, hxy, Nat.min_self]
  have hsize : (Array.zipWith op.apply x y).size = output.shape.count := by
    rw [hzip, Tensor.size_of_elements? hx, hshape]
  rw [singles_eq_ok hx, read_ok_bind_apply, singles_eq_ok hy, read_ok_bind_apply]
  apply onElements_ending (Tensor.exists_elements?_iff.mp ⟨z, hz⟩) hsize
  intro elements helements
  exact zipInto_run (helements.trans hzip) hxy

theorem clip_realizes (input : Tensor) (low high : Float) :
    Realizes (clip input low high) (Kernel.clip input low high) := by
  intro output
  rw [clip, get_bind_apply]
  apply dtype_step
  intro (hdtype : input.dtype = output.dtype)
  apply shape_step
  intro (hshape : input.shape = output.shape)
  split
  · rfl
  · split
    · rfl
    · have hsize : (input.data.map (input.dtype.clamp (input.dtype.ofFloat low)
          (input.dtype.ofFloat high))).size = output.shape.count := by
        rw [Array.size_map, input.size_eq, hshape]
      apply onElements_ending hdtype.symm hsize
      intro elements helements
      exact mapInto_run (helements.trans Array.size_map)

theorem isNaN_realizes (input : Tensor) : Realizes (isNaN input) (Kernel.isNaN input) := by
  intro output
  rw [isNaN, get_bind_apply]
  apply requireSingle_step
  intro x hx
  apply shape_step
  intro (hshape : input.shape = output.shape)
  have hsize : (x.map Float32.isNaN).size = output.shape.count := by
    rw [Array.size_map, Tensor.size_of_elements? hx, hshape]
  apply onTyped_ending hsize
  intro elements helements
  rw [singles_eq_ok hx, read_ok_bind_apply]
  exact mapInto_run (helements.trans Array.size_map)

end InPlace
end NetImport
