import NetImport.Tensor.Basic

/-!
# Contracts checked by the kernels

A kernel writes its result into a buffer of a type that its caller has derived
already.  It checks that contract again, in a fixed order, before it computes
anything, and refuses the operands when it does not hold.
-/

namespace NetImport
namespace Kernel

def requireSingle (op : String) (tensor : Tensor) : Except TensorError (Array Float32) :=
  match tensor.elements? .f32 with
  | some elements => .ok elements
  | none => .error (.unsupportedDType op tensor.dtype)

def requireShape (op : String) (expected actual : Shape) : Except TensorError Unit :=
  if expected = actual then .ok () else .error (.shapeMismatch op expected actual)

def requireSameDType (op : String) (lhs rhs : DType) : Except TensorError Unit :=
  if lhs = rhs then .ok () else .error (.dtypeMismatch op lhs rhs)

def elementsAs (dtype : DType) (tensor : Tensor) : Array dtype.Element :=
  (tensor.elements? dtype).getD #[]

def listText (numbers : List Nat) : String := bracketed (numbers.map toString)

end Kernel
end NetImport
