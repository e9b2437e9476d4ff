import NetImport.Model.Error
import NetImport.Numeric.Shortest

/-!
# Reading operator arguments

A reader asks for an argument by name and by kind.  An absent argument is no
error; an argument of another kind is, except where its value can be taken as it
stands.
-/

namespace NetImport
namespace Operator

def malformed (op : Operator) (arg detail : String) : LoadError :=
  .malformedArgument op.label arg detail

def wrongKind (op : Operator) (arg expected : String) (value : ArgValue) : LoadError :=
  op.malformed arg s!"expected {expected}, got {value.kindName}"

/-- A whole number. -/
def intArg? (op : Operator) (name : String) : Except LoadError (Option Int) :=
  match op.args.get? name with
  | none => .ok none
  | some (.int i) => .ok (some i.toInt)
  | some value => .error (op.wrongKind name "int" value)

def intArg (op : Operator) (name : String) (default : Int) : Except LoadError Int := do
  return (← op.intArg? name).getD default

def toNatural (op : Operator) (name : String) (i : Int) : Except LoadError Nat :=
  if 0 ≤ i then .ok i.toNat else .error (op.malformed name s!"{i} is negative")

/-- A whole number that is not negative. -/
def naturalArg? (op : Operator) (name : String) : Except LoadError (Option Nat) := do
  match ← op.intArg? name with
  | none => return none
  | some i => return some (← op.toNatural name i)

def naturalArg (op : Operator) (name : String) (default : Nat) : Except LoadError Nat := do
  return (← op.naturalArg? name).getD default

/-- A flag is a number, and set when it is not zero. -/
def flagArg (op : Operator) (name : String) : Except LoadError Bool := do
  return (← op.intArg name 0) != 0

def singleArg? (op : Operator) (name : String) : Except LoadError (Option Float32) :=
  match op.args.get? name with
  | none => .ok none
  | some (.float x) => .ok (some x.value)
  | some (.int i) => .ok (some (Binary.singleOfInt i.toInt))
  | some value => .error (op.wrongKind name "float" value)

def numberArg? (op : Operator) (name : String) : Except LoadError (Option Float) :=
  match op.args.get? name with
  | none => .ok none
  | some (.float x) => .ok (some x.widen)
  | some (.int i) => .ok (some (Binary.doubleOfInt i.toInt))
  | some value => .error (op.wrongKind name "number" value)

/-- The 32-bit number nearest to 9.2e18, below which whole numbers have 64 bits. -/
def wholeLimit : Int := (16734703 * twoPow 39 : Nat)

/-- The value of a datum that is a whole number. -/
def whole? : Binary.Datum → Option Int
  | .finite negative significand exponent =>
      let value := Binary.Datum.truncate negative significand exponent
      if significand * twoPow exponent.toNat % twoPow (-exponent).toNat = 0 ∧
          -wholeLimit < value ∧ value < wholeLimit then some value
      else none
  | _ => none

/-- A number without a fraction, of either kind. -/
def integerArg? (op : Operator) (name : String) : Except LoadError (Option Int) :=
  match op.args.get? name with
  | none => .ok none
  | some (.int i) => .ok (some i.toInt)
  | some (.float x) =>
      match whole? x.datum with
      | some i => .ok (some i)
      | none =>
          .error (op.malformed name
            s!"{Decimal.text Binary.single x.datum} is not a whole number")
  | some value => .error (op.wrongKind name "integer" value)

def textArg? (op : Operator) (name : String) : Except LoadError (Option String) :=
  match op.args.get? name with
  | none => .ok none
  | some (.text text) => .ok (some text)
  | some value => .error (op.wrongKind name "string" value)

/-- A list of whole numbers; an empty list may be of fractions as well. -/
def intsArg? (op : Operator) (name : String) : Except LoadError (Option (List Int)) :=
  match op.args.get? name with
  | none => .ok none
  | some (.ints values) => .ok (some (values.map Int64.toInt))
  | some (.floats []) => .ok (some [])
  | some value => .error (op.wrongKind name "ints" value)

def naturalsArg? (op : Operator) (name : String) : Except LoadError (Option (List Nat)) := do
  match ← op.intsArg? name with
  | none => return none
  | some values => return some (← values.mapM (op.toNatural name))

def singlesArg? (op : Operator) (name : String) : Except LoadError (Option (List Float32)) :=
  match op.args.get? name with
  | none => .ok none
  | some (.floats values) => .ok (some (values.map RawSingle.value))
  | some (.ints values) =>
      .ok (some (values.map fun i => Binary.singleOfInt i.toInt))
  | some value => .error (op.wrongKind name "floats" value)

end Operator
end NetImport
