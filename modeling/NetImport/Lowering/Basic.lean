import NetImport.Graph.Basic
import NetImport.Model.Arguments
import NetImport.Model.Environment

/-!
# Lowering steps

An operator is lowered by steps that look up its inputs, append nodes to a graph
and bind its outputs.  A step that fails ends the lowering of the operator; what
the steps before it appended and bound stays.
-/

namespace NetImport

structure Workspace where
  graph : Graph
  env : Environment

abbrev Lowering := ExceptT LoadError (StateM Workspace)

namespace Lowering

def ofExcept (result : Except LoadError α) : Lowering α :=
  match result with
  | .ok value => return value
  | .error error => throw error

def shapeError (op : Operator) (detail : String) : LoadError := .shapeMismatch op.label detail

def nodeName (op : Operator) (suffix : String) : String := s!"{op.label}.{suffix}"

/-- Appends a node on behalf of an operator; `refuse` words a refusal. -/
def append (refuse : GraphError → LoadError)
    (add : Graph → Except GraphError (Graph × Handle)) : Lowering Handle := do
  let work ← get
  match add work.graph with
  | .error error => throw (refuse error)
  | .ok (graph, value) =>
      set { work with graph := graph }
      return value

def build (op : Operator) (add : Graph → Except GraphError (Graph × Handle)) :
    Lowering Handle :=
  append (.ofGraphError op.label) add

def bindName (name : String) (value : Handle) : Lowering Unit := do
  let work ← get
  match work.env.bind name value with
  | .error error => throw error
  | .ok env => set { work with env := env }

def resolve (op name : String) : Lowering Handle := do
  ofExcept ((← get).env.resolve op name)

def input (op : Operator) (index : Nat) : Lowering Handle := do
  match op.inputs[index]? with
  | some name => resolve op.label name
  | none =>
      throw (op.malformed "input"
        s!"expected at least {index + 1} inputs, got {op.inputs.length}")

/-- The same, for an input that may be missing. -/
def optionalInput (op : Operator) (index : Nat) : Lowering (Option Handle) := do
  if index < op.inputs.length then return some (← input op index) else return none

/-- The values of all inputs, of which there must be one at least. -/
def allInputs (op : Operator) : Lowering (List Handle) := do
  if op.inputs.isEmpty then
    throw (op.malformed "input" s!"expected at least 1 inputs, got {op.inputs.length}")
  op.inputs.mapM (resolve op.label)

def typeOf (op : Operator) (value : Handle) : Lowering TensorType := do
  match (← get).graph.valueType value with
  | .ok type => return type
  | .error error => throw (.ofGraphError op.label error)

def dimsOf (op : Operator) (value : Handle) : Lowering (List Nat) := do
  return (← typeOf op value).dims

def bindOutput (op : Operator) (index : Nat) (value : Handle) : Lowering Unit := do
  match op.outputs[index]? with
  | some name => bindName name value
  | none =>
      throw (op.malformed "output"
        s!"expected at least {index + 1} outputs, got {op.outputs.length}")

/-- The tensor behind a value that is a constant. -/
def constant? (value : Handle) : Lowering (Option Tensor) := do
  return (← get).graph.nodes[value.node]?.bind Node.constant?

/-- Binds an auxiliary output to a constant, when it is declared.  The constant has
an inner name, which leaves the name of the output to a save. -/
def bindConstantOutput (op : Operator) (index : Nat) (tensor : Tensor) : Lowering Unit := do
  match op.outputs[index]? with
  | none => return ()
  | some name =>
      let value ← append (.ofVariableError op.label) fun graph =>
        graph.constant (nodeName op name) tensor
      bindName name value

/-- Reshapes a value, unless it has the extents already. -/
def reshapeTo (op : Operator) (value : Handle) (dims : List Nat) (suffix : String) :
    Lowering Handle := do
  if (← dimsOf op value) = dims then return value
  else build op fun graph => graph.reshape (nodeName op suffix) value dims

def canonicalAxis (op : Operator) (arg : String) (axis : Int) (rank : Nat) :
    Lowering Nat := do
  let resolved := if axis < 0 then axis + rank else axis
  if 0 ≤ resolved ∧ resolved < rank then return resolved.toNat
  else throw (op.malformed arg s!"axis {axis} out of range for rank {rank}")

def extentAt (op : Operator) (dims : List Nat) (index : Nat) : Lowering Nat := do
  match dims[index]? with
  | some extent => return extent
  | none => throw (.outOfDomain op.label)

def difference (op : Operator) (a b : Nat) : Lowering Nat := do
  if b ≤ a then return a - b else throw (.outOfDomain op.label)

def splitAt (op : Operator) (dims : List Nat) (axis : Nat) :
    Lowering (List Nat × List Nat) := do
  if axis ≤ dims.length then return (dims.take axis, dims.drop axis)
  else throw (.outOfDomain op.label)

/-- The extents of the matrix that a tensor is when split at an axis. -/
def matrixDims (op : Operator) (dims : List Nat) (axis : Nat) : Lowering (List Nat) := do
  let (outer, inner) ← splitAt op dims axis
  return [product outer, product inner]

end Lowering
end NetImport
