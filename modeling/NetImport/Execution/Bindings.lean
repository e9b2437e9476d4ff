import NetImport.Tensor.Basic

/-!
# Bindings

A run reads the tensors of its placeholders from bindings: a table from names
to tensors, in which a later entry for a name replaces an earlier one.
-/

namespace NetImport

/-- Tensors by name, in the order in which the names were first bound. -/
structure Bindings where
  entries : List (String × Tensor)

namespace Bindings

def empty : Bindings := ⟨[]⟩

def insertEntry (name : String) (tensor : Tensor) :
    List (String × Tensor) → List (String × Tensor)
  | [] => [(name, tensor)]
  | entry :: entries =>
      if entry.1 = name then (name, tensor) :: entries
      else entry :: insertEntry name tensor entries

def insert (bindings : Bindings) (name : String) (tensor : Tensor) : Bindings :=
  ⟨insertEntry name tensor bindings.entries⟩

def ofList (entries : List (String × Tensor)) : Bindings :=
  entries.foldl (fun bindings entry => bindings.insert entry.1 entry.2) empty

def get? (bindings : Bindings) (name : String) : Option Tensor :=
  (bindings.entries.find? fun entry => entry.1 = name).map Prod.snd

def size (bindings : Bindings) : Nat := bindings.entries.length

theorem find?_insertEntry (name other : String) (tensor : Tensor)
    (entries : List (String × Tensor)) :
    ((insertEntry name tensor entries).find? fun entry => entry.1 = other).map Prod.snd =
      if name = other then some tensor
      else (entries.find? fun entry => entry.1 = other).map Prod.snd := by
  induction entries with
  | nil => by_cases h : name = other <;> simp [insertEntry, h]
  | cons entry entries ih =>
      by_cases hentry : entry.1 = name
      · by_cases h : name = other <;> simp_all [insertEntry]
      · by_cases hother : entry.1 = other
        · have hname : other ≠ name := fun h => hentry (hother.trans h)
          simp [insertEntry, hother, hname, hname.symm]
        · simpa [insertEntry, hentry, hother] using ih

/-- A binding is read back, and leaves the other names alone. -/
theorem get?_insert (bindings : Bindings) (name other : String) (tensor : Tensor) :
    (bindings.insert name tensor).get? other =
      if name = other then some tensor else bindings.get? other :=
  find?_insertEntry name other tensor bindings.entries

end Bindings
end NetImport
