import NetImport.Model.Tables
import NetImport.Proofs.Model.Environment
import NetImport.Proofs.Sequencing
import Mathlib.Data.List.Induction
import Std.Data.HashMap.Lemmas

/-!
# The two parts of a table

The map of a table is kept in step with its list: a name is mapped exactly when it is listed, and
to the value or the place that it has there.  So no place leads out of a table, and a table does
what its list alone would do.
-/

namespace NetImport

/-! ## Places of entries -/

namespace PlacedEntries

variable {α β : Type} {table : PlacedEntries α} {entries : List (String × α)} {name : String}
  {value : α}

/-- A table lists some entries, and maps each name to the place where it is listed. -/
structure Keeps (table : PlacedEntries α) (entries : List (String × α)) : Prop where
  entries_eq : table.entries.toList = entries
  places_iff : ∀ (name : String) (place : Nat),
    table.places[name]? = some place ↔ (entries.map Prod.fst)[place]? = some name

theorem keeps_empty : Keeps (.empty : PlacedEntries α) [] :=
  ⟨rfl, by simp [empty]⟩

theorem Keeps.contains_iff (hkeeps : table.Keeps entries) :
    table.contains name = true ↔ name ∈ entries.map Prod.fst := by
  rw [contains, Std.HashMap.contains_eq_isSome_getElem?, Option.isSome_iff_exists,
    List.mem_iff_getElem?]
  exact exists_congr fun place => hkeeps.places_iff name place

theorem Keeps.insert_of_fresh (hkeeps : table.Keeps entries)
    (hfresh : name ∉ entries.map Prod.fst) (value : α) :
    table.insert name value = .ok (table.push name value) :=
  if_neg (mt hkeeps.contains_iff.mp hfresh)

theorem Keeps.insert_of_mem (hkeeps : table.Keeps entries)
    (hname : name ∈ entries.map Prod.fst) (value : α) :
    table.insert name value = .error (.nameConflict name) :=
  if_pos (hkeeps.contains_iff.mpr hname)

/-- What a look-up finds is listed, and what is listed is found. -/
theorem Keeps.get?_iff (hkeeps : table.Keeps entries) :
    table.get? name = some value ↔ (name, value) ∈ entries := by
  have hread (place : Nat) : table.entries[place]? = entries[place]? := by
    rw [← hkeeps.entries_eq, Array.getElem?_toList]
  simp only [get?, Option.bind_eq_bind, Option.bind_eq_some_iff, hkeeps.places_iff, hread,
    List.getElem?_map, Option.map_eq_some_iff]
  constructor
  · rintro ⟨place, ⟨named, hnamed, rfl⟩, entry, hentry, hvalue⟩
    obtain rfl := Option.some.inj (hnamed.symm.trans hentry)
    obtain rfl := Option.some.inj hvalue
    exact List.mem_of_getElem? hnamed
  · intro hmem
    obtain ⟨place, hplace⟩ := List.mem_iff_getElem?.mp hmem
    exact ⟨place, ⟨_, hplace, rfl⟩, (name, value), hplace, rfl⟩

theorem getElem?_concat_eq_some_iff {names : List String} {last other : String} {place : Nat} :
    (names ++ [last])[place]? = some other ↔
      names[place]? = some other ∨ place = names.length ∧ last = other := by
  rcases Nat.lt_trichotomy place names.length with hbelow | rfl | habove
  · rw [List.getElem?_append_left hbelow]
    simp [Nat.ne_of_lt hbelow]
  · simp
  · have hbeyond : (names ++ [last]).length ≤ place := by
      rw [List.length_append, List.length_singleton]
      exact habove
    rw [List.getElem?_eq_none hbeyond, List.getElem?_eq_none (Nat.le_of_lt habove)]
    simp [Nat.ne_of_gt habove]

/-- A fresh name gets the place behind all others. -/
theorem Keeps.push (hkeeps : table.Keeps entries) (hfresh : name ∉ entries.map Prod.fst)
    (value : α) : (table.push name value).Keeps (entries ++ [(name, value)]) := by
  have hsize : table.entries.size = (entries.map Prod.fst).length := by
    rw [← hkeeps.entries_eq, List.length_map, Array.length_toList]
  constructor
  · rw [PlacedEntries.push, Array.toList_push, hkeeps.entries_eq]
  · intro other place
    rw [PlacedEntries.push, Std.HashMap.getElem?_insert, hsize, List.map_append,
      List.map_singleton, getElem?_concat_eq_some_iff]
    by_cases hname : name = other
    · subst hname
      have hnone : ¬(entries.map Prod.fst)[place]? = some name := fun hsome =>
        hfresh (List.mem_of_getElem? hsome)
      rw [if_pos BEq.rfl, Option.some_inj, or_iff_right hnone, and_iff_left rfl]
      exact eq_comm
    · rw [if_neg (by simpa using hname), hkeeps.places_iff]
      simp [hname]

/-- A table that is filled entry by entry, where the names are distinct. -/
theorem keeps_foldl (view : β → α) {listed : List (String × β)}
    (hdistinct : (listed.map Prod.fst).Nodup) :
    Keeps (listed.foldl (fun table entry => table.push entry.1 (view entry.2)) .empty)
      (listed.map fun entry => (entry.1, view entry.2)) := by
  induction listed using List.reverseRecOn with
  | nil => exact keeps_empty
  | append_singleton listed entry ih =>
      rw [List.map_append, List.nodup_append] at hdistinct
      obtain ⟨hdistinct, -, hfresh⟩ := hdistinct
      rw [List.foldl_append, List.map_append]
      refine (ih hdistinct).push ?_ (view entry.2)
      rw [List.map_map]
      exact fun hmem => hfresh _ hmem entry.1 (List.mem_singleton_self _) rfl

end PlacedEntries

/-! ## Values of names -/

namespace NamedValues

variable {table : NamedValues Handle} {env : Environment} {name : String}

/-- A table lists the names of an environment, and finds for each name what it finds there. -/
structure Keeps (table : NamedValues Handle) (env : Environment) : Prop where
  order_eq : table.order.toList = env.entries.map Prod.fst
  get?_eq : ∀ name, table.get? name = env.get? name

theorem keeps_empty : Keeps .empty .empty :=
  ⟨rfl, fun name => by simp [get?, empty, Environment.get?, Environment.empty]⟩

theorem Keeps.contains_eq (hkeeps : table.Keeps env) (name : String) :
    table.contains name = env.contains name := by
  rw [Bool.eq_iff_iff, contains, Std.HashMap.contains_eq_isSome_getElem?, ← get?,
    hkeeps.get?_eq, Option.isSome_iff_ne_none, Ne, Environment.get?_eq_none_iff, not_not,
    Environment.contains, List.contains_iff_mem]

theorem Keeps.resolve_eq (hkeeps : table.Keeps env) (op name : String) :
    table.resolve op name = env.resolve op name := by
  rw [resolve, hkeeps.get?_eq, Environment.resolve]
  cases env.get? name <;> rfl

/-- Every listed name has a value, and the bindings are listed as they were made. -/
theorem Keeps.entries?_eq (hkeeps : table.Keeps env) : table.entries? = some env.entries := by
  have hlisted : ∀ entry ∈ env.entries,
      (do return (entry.1, ← table.values[entry.1]?)) = some (id entry) := by
    intro entry hentry
    have hvalue : table.values[entry.1]? = some entry.2 :=
      (hkeeps.get?_eq entry.1).trans (Environment.get?_eq_some_iff.mpr hentry)
    simp [hvalue]
  rw [entries?, hkeeps.order_eq, List.mapM_map]
  exact (mapM_eq_some_map hlisted).trans (congrArg some (List.map_id _))

/-- A name is bound in both or refused in both. -/
theorem Keeps.bind (hkeeps : table.Keeps env) (name : String) (value : Handle) :
    (∃ last next, table.bind name value = .ok last ∧ env.bind name value = .ok next ∧
      last.Keeps next) ∨
    table.bind name value = .error (.nameConflict name) ∧
      env.bind name value = .error (.nameConflict name) := by
  have hcontains : table.values.contains name = env.contains name := hkeeps.contains_eq name
  by_cases hbound : name ∈ env.entries.map Prod.fst
  · right
    rw [NamedValues.bind, hcontains, Environment.contains, if_pos (List.contains_iff_mem.mpr hbound),
      Environment.bind, dif_pos hbound]
    exact ⟨rfl, rfl⟩
  · left
    rw [NamedValues.bind, hcontains, Environment.contains,
      if_neg (mt List.contains_iff_mem.mp hbound), Environment.bind, dif_neg hbound]
    refine ⟨_, _, rfl, rfl, ?_, fun other => ?_⟩
    · simp [push, hkeeps.order_eq]
    · have hrest : table.values[other]? = env.get? other := hkeeps.get?_eq other
      rw [get?, push, Std.HashMap.getElem?_insert, hrest]
      by_cases hname : name = other
      · subst hname
        rw [if_pos BEq.rfl]
        symm
        exact Environment.get?_eq_some_iff.mpr (List.mem_append_right _ (List.mem_singleton_self _))
      · rw [if_neg (by simpa using hname)]
        simp [Environment.get?, List.find?_append, hname]

/-- The same of any bindings in turn. -/
theorem Keeps.foldlM_bind (hkeeps : table.Keeps env) (bindings : List (String × Handle)) :
    (∃ last next,
      bindings.foldlM (fun table entry => table.bind entry.1 entry.2) table = .ok last ∧
      bindings.foldlM (fun env entry => env.bind entry.1 entry.2) env = .ok next ∧
      last.Keeps next) ∨
    ∃ error,
      bindings.foldlM (fun table entry => table.bind entry.1 entry.2) table = .error error ∧
      bindings.foldlM (fun env entry => env.bind entry.1 entry.2) env = .error error := by
  induction bindings generalizing table env with
  | nil => exact .inl ⟨table, env, rfl, rfl, hkeeps⟩
  | cons entry bindings ih =>
      rw [List.foldlM_cons, List.foldlM_cons]
      rcases hkeeps.bind entry.1 entry.2 with
        ⟨last, next, hlast, hnext, hkept⟩ | ⟨htable, henv⟩
      · rw [hlast, hnext, ok_bind, ok_bind]
        exact ih hkept
      · rw [htable, henv]
        exact .inr ⟨_, rfl, rfl⟩

end NamedValues
end NetImport
