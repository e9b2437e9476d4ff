import NetImport.Model.Arguments

/-!
# Weights

Each operator of an init net fills one tensor, from listed values or from one
value.  Whole numbers are stored as they are given or refused.
-/

namespace NetImport

/-- Tensors by name, in the order of the net that fills them. -/
structure WeightTable where
  entries : List (String × Tensor)
  distinct : (entries.map Prod.fst).Nodup

namespace Fill

def dtypeOfCode? (code : Int) : Option DType :=
  if code = 1 then some .f32
  else if code = 2 then some .i32
  else if code = 5 then some .bool
  else if code = 6 then some .u8
  else if code = 7 then some .i8
  else if code = 10 then some .i64
  else none

def overflow (op : Operator) (arg : String) (dtype : DType) (i : Int) : LoadError :=
  op.malformed arg s!"{i} overflows {dtype.label}"

def requiredShape (op : Operator) : Except LoadError Shape := do
  match ← op.naturalsArg? "shape" with
  | some dims => return ⟨dims⟩
  | none => .error (op.malformed "shape" "required by tensor fills")

def listed (op : Operator) (dtype : DType) (data : List dtype.Element) :
    Except LoadError Tensor := do
  let shape ← requiredShape op
  if hsize : data.toArray.size = shape.count then
    return ⟨dtype, shape, data.toArray, hsize⟩
  else
    .error (.shapeMismatch op.label
      s!"shape {shape.text} needs {shape.count} values, got {data.length}")

def requiredInts (op : Operator) (dtype : DType) : Except LoadError (List Int) := do
  match ← op.intsArg? "values" with
  | some values => return values
  | none => .error (op.malformed "values" s!"required for {dtype.label} fills")

def exact (op : Operator) (arg : String) (dtype : DType) (i : Int) :
    Except LoadError dtype.Element :=
  match dtype.ofInt? i with
  | some x => .ok x
  | none => .error (overflow op arg dtype i)

/-- A tensor of listed whole numbers. -/
def listedInts (op : Operator) (dtype : DType) : Except LoadError Tensor := do
  listed op dtype (← (← requiredInts op dtype).mapM (exact op "values" dtype))

/-- A tensor with every element equal. -/
def uniform (op : Operator) (shape : Shape) (dtype : DType) : Except LoadError Tensor := do
  if dtype = .f32 ∨ dtype = .bool then
    return Tensor.splat dtype shape ((← op.numberArg? "value").getD 0.0)
  else
    let value := (← op.integerArg? "value").getD 0
    return Tensor.constant dtype shape (← exact op "value" dtype value)

def tensor (op : Operator) : Except LoadError Tensor := do
  match op.kind with
  | "GivenTensorFill" =>
      match ← op.singlesArg? "values" with
      | some values => listed op .f32 values
      | none => .error (op.malformed "values" "required for f32 fills")
  | "GivenTensorIntFill" => listedInts op .i32
  | "GivenTensorInt64Fill" => listedInts op .i64
  | "GivenTensorBoolFill" =>
      listed op .bool ((← requiredInts op .bool).map fun i => decide (i ≠ 0))
  | "ConstantFill" =>
      let shape : Shape := ⟨(← op.naturalsArg? "shape").getD []⟩
      let code ← op.intArg "dtype" 1
      match dtypeOfCode? code with
      | some dtype => uniform op shape dtype
      | none => .error (op.malformed "dtype" s!"unsupported data type code {code}")
  | kind => .error (.unsupportedOperator kind)

def target (op : Operator) : Except LoadError String :=
  match op.outputs with
  | [name] => .ok name
  | outputs =>
      .error (op.malformed "output"
        s!"fill operators produce one output, got {outputs.length}")

end Fill

namespace WeightTable

def empty : WeightTable := ⟨[], List.nodup_nil⟩

def contains (table : WeightTable) (name : String) : Bool :=
  (table.entries.map Prod.fst).contains name

def get? (table : WeightTable) (name : String) : Option Tensor :=
  (table.entries.find? fun entry => entry.1 = name).map Prod.snd

def size (table : WeightTable) : Nat := table.entries.length

def totalBytes (table : WeightTable) : Nat :=
  total (table.entries.map fun entry => entry.2.sizeBytes)

def insert (table : WeightTable) (name : String) (tensor : Tensor) :
    Except LoadError WeightTable :=
  if hname : name ∈ table.entries.map Prod.fst then .error (.nameConflict name)
  else .ok {
    entries := table.entries ++ [(name, tensor)]
    distinct := by
      rw [List.map_append, List.nodup_append]
      refine ⟨table.distinct, by simp, ?_⟩
      intro other hother last hlast heq
      rw [List.map_singleton, List.mem_singleton] at hlast
      rw [heq, hlast] at hother
      exact hname hother }

def addFill (table : WeightTable) (op : Operator) : Except LoadError WeightTable := do
  let tensor ← Fill.tensor op
  let name ← Fill.target op
  table.insert name tensor

/-- Executes the fill operators of an init net in order. -/
def ofNet (init : NetDefinition) : Except LoadError WeightTable :=
  init.operators.foldlM addFill empty

end WeightTable
end NetImport
