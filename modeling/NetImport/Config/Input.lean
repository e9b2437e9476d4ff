import NetImport.Files.Store
import NetImport.Tensor.Basic

/-!
# Configured inputs

An input of a model is described by its name, its type and its elements: a list
of them, or one number for all.
-/

namespace NetImport

/-- Why a configuration is refused. -/
inductive ConfigError where
  | unreadable (path : String) (cause : FileError)
  /-- The file is no text. -/
  | encoding (path : String)
  /-- The text is no TOML document, or one of another form. -/
  | malformed
  | input (name : String) (cause : TensorError)
deriving DecidableEq, Repr

namespace ConfigError

def message : ConfigError → String
  | .unreadable path cause => s!"cannot read config '{path}': {cause.readMessage}"
  | .encoding path => s!"cannot read config '{path}': stream did not contain valid UTF-8"
  | .malformed => "TOML parse error"
  | .input name cause => s!"input '{name}': {cause.message}"

end ConfigError

structure InputSpec where
  name : String
  dims : List Nat
  dtype : DType
  /-- The number that every element is made from; zero when it is missing. -/
  fill? : Option Float
  /-- The numbers that the elements are made from, in row-major order. -/
  values? : Option (List Float)

namespace InputSpec

def type (spec : InputSpec) : TensorType := ⟨spec.dtype, ⟨spec.dims⟩⟩

/-- The described tensor.  A list of elements comes before a common one and must be
as long as the shape asks. -/
def tensor (spec : InputSpec) : Except ConfigError Tensor :=
  match spec.values? with
  | none => .ok (Tensor.splat spec.dtype ⟨spec.dims⟩ (spec.fill?.getD 0.0))
  | some values =>
      match Tensor.ofArray spec.dtype ⟨spec.dims⟩ (values.map spec.dtype.ofFloat).toArray with
      | .ok tensor => .ok tensor
      | .error cause => .error (.input spec.name cause)

def sameValues (lhs rhs : InputSpec) : Bool :=
  lhs.name == rhs.name && lhs.dims == rhs.dims && lhs.dtype == rhs.dtype &&
    lhs.fill? == rhs.fill? && lhs.values? == rhs.values?

end InputSpec
end NetImport
