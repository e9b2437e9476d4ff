import NetImport.Tensor.Error

/-!
# Tensors

A tensor is a shape with as many elements of one type, in row-major order.
The element count is part of the type, so every kernel that builds a tensor
shows that it fills the whole of it.
-/

namespace NetImport

structure Tensor where
  dtype : DType
  shape : Shape
  data : Array dtype.Element
  size_eq : data.size = shape.count

structure TensorType where
  dtype : DType
  shape : Shape
deriving DecidableEq, Repr, Inhabited

namespace TensorType

def dims (type : TensorType) : List Nat := type.shape.dims

def text (type : TensorType) : String := type.dtype.label ++ type.shape.text

def sizeBytes (type : TensorType) : Nat := type.shape.count * type.dtype.sizeBytes

end TensorType

namespace Tensor

def type (tensor : Tensor) : TensorType := ⟨tensor.dtype, tensor.shape⟩

def sizeBytes (tensor : Tensor) : Nat := tensor.type.sizeBytes

/-- A tensor with every element equal. -/
def constant (dtype : DType) (shape : Shape) (value : dtype.Element) : Tensor where
  dtype := dtype
  shape := shape
  data := Array.replicate shape.count value
  size_eq := by simp

def zeros (dtype : DType) (shape : Shape) : Tensor := constant dtype shape dtype.zero

/-- A tensor with every element converted from one number. -/
def splat (dtype : DType) (shape : Shape) (value : Float) : Tensor :=
  constant dtype shape (dtype.ofFloat value)

/-- A tensor given by its elements, which must be as many as the shape holds. -/
def ofArray (dtype : DType) (shape : Shape) (data : Array dtype.Element) :
    Except TensorError Tensor :=
  if h : data.size = shape.count then .ok ⟨dtype, shape, data, h⟩
  else .error (.bufferSize shape.count data.size)

def ofList (dtype : DType) (elements : List dtype.Element) : Tensor where
  dtype := dtype
  shape := .vector elements.length
  data := elements.toArray
  size_eq := by simp [Shape.vector, Shape.count, product]

def tabulate (dtype : DType) (shape : Shape) (f : List Nat → dtype.Element) : Tensor where
  dtype := dtype
  shape := shape
  data := (shape.coordinates.map f).toArray
  size_eq := by simp

/-- The elements, when they are of the given type. -/
def elements? (tensor : Tensor) (dtype : DType) : Option (Array dtype.Element) :=
  if h : tensor.dtype = dtype then some (h ▸ tensor.data) else none

/-- The element at a position; positions past the end read as zero. -/
def get (tensor : Tensor) (position : Nat) : tensor.dtype.Element :=
  tensor.data.getD position tensor.dtype.zero

/-- The element at a coordinate list, when the type and the coordinates fit. -/
def at? (tensor : Tensor) (dtype : DType) (coords : List Nat) : Option dtype.Element := do
  let position ← tensor.shape.flatIndex? coords
  let elements ← tensor.elements? dtype
  elements[position]?

def sameValues (lhs rhs : Tensor) : Bool :=
  lhs.shape == rhs.shape &&
    match rhs.elements? lhs.dtype with
    | some elements =>
        (Array.zipWith (lhs.dtype.sameValue · ·) lhs.data elements).all id
    | none => false

/-- The same elements in a shape of equal count. -/
def reshaped (tensor : Tensor) (shape : Shape) : Except TensorError Tensor :=
  if h : shape.count = tensor.shape.count then
    .ok { tensor with shape := shape, size_eq := by rw [tensor.size_eq, h] }
  else .error (.shapeMismatch "reshape" tensor.shape shape)

def toInts? (tensor : Tensor) : Option (List Int) :=
  match tensor.dtype with
  | .f32 | .bool => none
  | _ => some (tensor.data.toList.filterMap tensor.dtype.toInt?)

end Tensor
end NetImport
