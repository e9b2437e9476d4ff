import NetImport.Numeric.Binary

/-!
# Element types

A tensor holds elements of one of six types.  Besides its name and its size,
an element type has a range of finite values, and every 64-bit number converts
into it: fractions are dropped by the integer types, what lies outside an
integer range goes to the nearer end, and the boolean type asks whether the
number differs from zero.
-/

namespace NetImport

open Binary

inductive DType where
  | f32
  | i8
  | u8
  | i32
  | i64
  | bool
deriving DecidableEq, Repr, Inhabited

namespace DType

@[reducible] def Element : DType → Type
  | .f32 => Float32
  | .i8 => Int8
  | .u8 => UInt8
  | .i32 => Int32
  | .i64 => Int64
  | .bool => Bool

instance (dtype : DType) : DecidableEq dtype.Element := by
  cases dtype <;> exact inferInstance

instance (dtype : DType) : Inhabited dtype.Element := by
  cases dtype <;> exact inferInstance

def sizeBytes : DType → Nat
  | .f32 => 4
  | .i8 => 1
  | .u8 => 1
  | .i32 => 4
  | .i64 => 8
  | .bool => 1

def label : DType → String
  | .f32 => "f32"
  | .i8 => "i8"
  | .u8 => "u8"
  | .i32 => "i32"
  | .i64 => "i64"
  | .bool => "bool"

/-- Reads a label or one of its long spellings, in any mixture of cases.  No
letter outside the ASCII range has one of these letters as its lower case. -/
def parse? (text : String) : Option DType :=
  match text.toLower with
  | "f32" | "float" | "float32" => some .f32
  | "i8" | "int8" => some .i8
  | "u8" | "uint8" => some .u8
  | "i32" | "int32" => some .i32
  | "i64" | "int64" => some .i64
  | "bool" => some .bool
  | _ => none

def ofLabel? (text : String) : Option DType :=
  [DType.f32, .i8, .u8, .i32, .i64, .bool].find? fun dtype => dtype.label == text

def isFloat (dtype : DType) : Bool := dtype == .f32

def greatestSingle : Float := toDouble (.finite false 16777215 104)

def range? : DType → Option IntRange
  | .i8 => some .signed8
  | .u8 => some .unsigned8
  | .i32 => some .signed32
  | .i64 => some .signed64
  | .f32 => none
  | .bool => none

def lowest : DType → Float
  | .f32 => -greatestSingle
  | .bool => 0.0
  | dtype => (dtype.range?.elim 0 IntRange.lowest) |> doubleOfInt

/-- The greatest finite value, rounded where 64-bit numbers cannot hold it. -/
def highest : DType → Float
  | .f32 => greatestSingle
  | .bool => 1.0
  | dtype => (dtype.range?.elim 0 IntRange.highest) |> doubleOfInt

def ofFloat : (dtype : DType) → Float → dtype.Element
  | .f32, x => narrow x
  | .i8, x => Int8.ofInt ((ofDouble x).saturate .signed8)
  | .u8, x => UInt8.ofNat ((ofDouble x).saturate .unsigned8).toNat
  | .i32, x => Int32.ofInt ((ofDouble x).saturate .signed32)
  | .i64, x => Int64.ofInt ((ofDouble x).saturate .signed64)
  | .bool, x => x != 0.0

/-- The element of an integer type with a given value, when the type has it. -/
def ofInt? : (dtype : DType) → Int → Option dtype.Element
  | .i8, i => if i ∈ IntRange.signed8 then some (Int8.ofInt i) else none
  | .u8, i => if i ∈ IntRange.unsigned8 then some (UInt8.ofNat i.toNat) else none
  | .i32, i => if i ∈ IntRange.signed32 then some (Int32.ofInt i) else none
  | .i64, i => if i ∈ IntRange.signed64 then some (Int64.ofInt i) else none
  | .f32, _ => none
  | .bool, _ => none

def zero : (dtype : DType) → dtype.Element
  | .f32 => 0.0
  | .i8 => 0
  | .u8 => 0
  | .i32 => 0
  | .i64 => 0
  | .bool => false

/-- Equality of values: a number that is none differs from itself, and the two
zeros are equal. -/
def sameValue : (dtype : DType) → dtype.Element → dtype.Element → Bool
  | .f32, x, y => x == y
  | .i8, x, y => x == y
  | .u8, x, y => x == y
  | .i32, x, y => x == y
  | .i64, x, y => x == y
  | .bool, x, y => x == y

def toInt? : (dtype : DType) → dtype.Element → Option Int
  | .i8, x => some x.toInt
  | .u8, x => some x.toNat
  | .i32, x => some x.toInt
  | .i64, x => some x.toInt
  | .f32, _ => none
  | .bool, _ => none

end DType
end NetImport
