import NetImport.Net.Argument

/-!
# Net definitions

A net is an ordered list of operators over named values, with the names that it
takes from outside and those that it leaves to the outside.  A predict net
computes; an init net fills weights.
-/

namespace NetImport

structure Operator where
  kind : String
  inputs : List String
  outputs : List String
  name? : Option String
  args : Arguments
deriving Inhabited

namespace Operator

/-- How messages call an operator: by its name, else by its first output, else by
its kind. -/
def label (op : Operator) : String :=
  match op.name?.filter fun name => name != "", op.outputs with
  | some name, _ => name
  | none, output :: _ => output
  | none, [] => op.kind

def sameValues (lhs rhs : Operator) : Bool :=
  lhs.kind == rhs.kind && lhs.inputs == rhs.inputs && lhs.outputs == rhs.outputs &&
    lhs.name? == rhs.name? && lhs.args.sameValues rhs.args

end Operator

structure NetDefinition where
  name : String
  operators : List Operator
  externalInputs : List String
  externalOutputs : List String
deriving Inhabited

namespace NetDefinition

/-- The net that does nothing. -/
def empty : NetDefinition := ⟨"", [], [], []⟩

def sameValues (lhs rhs : NetDefinition) : Bool :=
  lhs.name == rhs.name && lhs.externalInputs == rhs.externalInputs &&
    lhs.externalOutputs == rhs.externalOutputs &&
    lhs.operators.length == rhs.operators.length &&
    (List.zipWith Operator.sameValues lhs.operators rhs.operators).all id

end NetDefinition
end NetImport
