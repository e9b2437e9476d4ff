import NetImport.Tensor.Basic

/-!
# Storage and stops

The elements of a tensor are as many as its shape says.  Storage is a tensor of which that is
not known: one that a routine is working on, that was filled by hand, or whose count did not
fit in a word.  Work on it stops when the operands are refused, or at a fault.
-/

namespace NetImport
namespace InPlace

inductive Stop where
  | refused (reason : TensorError)
  | fault
deriving DecidableEq, Repr

instance : MonadLift (Except TensorError) (Except Stop) where
  monadLift
    | .ok value => .ok value
    | .error reason => .error (.refused reason)

/-- A value that must be there. -/
def orFault {α : Type} : Option α → Except Stop α
  | some value => .ok value
  | none => .error .fault

/-- A tensor while a routine works on it: nothing relates its elements to its shape. -/
structure Storage where
  dtype : DType
  shape : Shape
  data : Array dtype.Element

namespace Storage

def type (storage : Storage) : TensorType := ⟨storage.dtype, storage.shape⟩

/-- There are as many elements as the shape says. -/
def WellFormed (storage : Storage) : Prop := storage.data.size = storage.shape.count

instance (storage : Storage) : Decidable storage.WellFormed :=
  inferInstanceAs (Decidable (storage.data.size = storage.shape.count))

end Storage
end InPlace

def Tensor.storage (tensor : Tensor) : InPlace.Storage :=
  ⟨tensor.dtype, tensor.shape, tensor.data⟩

end NetImport
