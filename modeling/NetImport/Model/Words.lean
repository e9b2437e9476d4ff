import NetImport.Kernel.Storage
import NetImport.Model.Tables
import NetImport.Model.Weights
import NetImport.Tensor.Words

/-!
# Weights in words

The fills of an init net with the elements counted in words.  A count that is cut lets values
pass that are not as many as the extents say, so the result is storage.
-/

namespace NetImport

open InPlace (Storage)

namespace Fill

def listedInWords (bits : Nat) (op : Operator) (dtype : DType) (data : List dtype.Element) :
    Except LoadError Storage := do
  let shape ← requiredShape op
  if data.toArray.size = shape.countInWords bits then return ⟨dtype, shape, data.toArray⟩
  else
    .error (.shapeMismatch op.label
      s!"shape {shape.text} needs {shape.countInWords bits} values, got {data.length}")

def listedIntsInWords (bits : Nat) (op : Operator) (dtype : DType) : Except LoadError Storage := do
  listedInWords bits op dtype (← (← requiredInts op dtype).mapM (exact op "values" dtype))

def uniformInWords (bits : Nat) (op : Operator) (shape : Shape) (dtype : DType) :
    Except LoadError Storage := do
  let count := shape.countInWords bits
  if dtype = .f32 ∨ dtype = .bool then
    let value := (← op.numberArg? "value").getD 0.0
    return ⟨dtype, shape, Array.replicate count (dtype.ofFloat value)⟩
  else
    let value := (← op.integerArg? "value").getD 0
    return ⟨dtype, shape, Array.replicate count (← exact op "value" dtype value)⟩

def tensorInWords (bits : Nat) (op : Operator) : Except LoadError Storage := do
  match op.kind with
  | "GivenTensorFill" =>
      match ← op.singlesArg? "values" with
      | some values => listedInWords bits op .f32 values
      | none => .error (op.malformed "values" "required for f32 fills")
  | "GivenTensorIntFill" => listedIntsInWords bits op .i32
  | "GivenTensorInt64Fill" => listedIntsInWords bits op .i64
  | "GivenTensorBoolFill" =>
      listedInWords bits op .bool ((← requiredInts op .bool).map fun i => decide (i ≠ 0))
  | "ConstantFill" =>
      let shape : Shape := ⟨(← op.naturalsArg? "shape").getD []⟩
      let code ← op.intArg "dtype" 1
      match dtypeOfCode? code with
      | some dtype => uniformInWords bits op shape dtype
      | none => .error (op.malformed "dtype" s!"unsupported data type code {code}")
  | kind => .error (.unsupportedOperator kind)

/-- The count of the elements that an operator asks for is a word. -/
def FitsWords (bits : Nat) (op : Operator) : Prop :=
  ∀ found, op.naturalsArg? "shape" = .ok found → Shape.count ⟨found.getD []⟩ < twoPow bits

end Fill

namespace WeightTable

def addFillInWords (bits : Nat) (table : PlacedEntries Storage) (op : Operator) :
    Except LoadError (PlacedEntries Storage) := do
  let storage ← Fill.tensorInWords bits op
  let name ← Fill.target op
  table.insert name storage

def ofNetInWords (bits : Nat) (init : NetDefinition) :
    Except LoadError (PlacedEntries Storage) :=
  init.operators.foldlM (addFillInWords bits) .empty

/-- The entries of a table, with a map to their places. -/
def indexed (table : WeightTable) : PlacedEntries Storage :=
  table.entries.foldl (fun table entry => table.push entry.1 entry.2.storage) .empty

end WeightTable
end NetImport
