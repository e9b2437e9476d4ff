import NetImport.Model.Error

/-!
# Environments

While a net is imported, an environment tells which graph value each of its names
stands for.  A name is bound once and stays bound.
-/

namespace NetImport

structure Environment where
  entries : List (String × Handle)
  distinct : (entries.map Prod.fst).Nodup

namespace Environment

def empty : Environment := ⟨[], List.nodup_nil⟩

def get? (env : Environment) (name : String) : Option Handle :=
  (env.entries.find? fun entry => entry.1 = name).map Prod.snd

def contains (env : Environment) (name : String) : Bool :=
  (env.entries.map Prod.fst).contains name

def size (env : Environment) : Nat := env.entries.length

def bind (env : Environment) (name : String) (value : Handle) :
    Except LoadError Environment :=
  if hname : name ∈ env.entries.map Prod.fst then .error (.nameConflict name)
  else .ok {
    entries := env.entries ++ [(name, value)]
    distinct := by
      rw [List.map_append, List.nodup_append]
      refine ⟨env.distinct, by simp, ?_⟩
      intro other hother last hlast heq
      rw [List.map_singleton, List.mem_singleton] at hlast
      rw [heq, hlast] at hother
      exact hname hother }

def resolve (env : Environment) (op name : String) : Except LoadError Handle :=
  match env.get? name with
  | some value => .ok value
  | none => .error (.unboundInput op name)

end Environment
end NetImport
