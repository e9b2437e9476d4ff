import NetImport.Model.Environment
import Std.Data.HashMap.Basic

/-!
# Tables with an index

The names of an environment and of a table of weights are listed in their order and looked up in
a map.  The two parts of a table are filled together: an environment maps a name to its value,
and weights map it to the place of its entry.
-/

namespace NetImport

/-- Names in the order in which they were bound, and a map to what they stand for. -/
structure NamedValues (α : Type) where
  order : Array String
  values : Std.HashMap String α

namespace NamedValues

variable {α : Type}

def empty : NamedValues α := ⟨#[], ∅⟩

def push (table : NamedValues α) (name : String) (value : α) : NamedValues α :=
  ⟨table.order.push name, table.values.insert name value⟩

def bind (table : NamedValues α) (name : String) (value : α) :
    Except LoadError (NamedValues α) :=
  if table.values.contains name then .error (.nameConflict name) else .ok (table.push name value)

def get? (table : NamedValues α) (name : String) : Option α := table.values[name]?

def contains (table : NamedValues α) (name : String) : Bool := table.values.contains name

def resolve (table : NamedValues α) (op name : String) : Except LoadError α :=
  match table.get? name with
  | some value => .ok value
  | none => .error (.unboundInput op name)

/-- The bindings in their order; none, if a name has no value. -/
def entries? (table : NamedValues α) : Option (List (String × α)) :=
  table.order.toList.mapM fun name => do return (name, ← table.values[name]?)

def size (table : NamedValues α) : Nat := table.order.size

end NamedValues

/-- Entries in the order in which they came, and a map to the places of their names. -/
structure PlacedEntries (α : Type) where
  entries : Array (String × α)
  places : Std.HashMap String Nat

namespace PlacedEntries

variable {α : Type}

def empty : PlacedEntries α := ⟨#[], ∅⟩

def push (table : PlacedEntries α) (name : String) (value : α) : PlacedEntries α :=
  ⟨table.entries.push (name, value), table.places.insert name table.entries.size⟩

def insert (table : PlacedEntries α) (name : String) (value : α) :
    Except LoadError (PlacedEntries α) :=
  if table.places.contains name then .error (.nameConflict name) else .ok (table.push name value)

/-- The entry at the place of a name; none, if the place leads out of the entries. -/
def get? (table : PlacedEntries α) (name : String) : Option α := do
  let place ← table.places[name]?
  let entry ← table.entries[place]?
  return entry.2

def contains (table : PlacedEntries α) (name : String) : Bool := table.places.contains name

end PlacedEntries

end NetImport
