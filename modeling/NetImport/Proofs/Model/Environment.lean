import NetImport.Model.Environment
import Mathlib.Data.List.Nodup

/-!
# Look-ups by name

Where every name is bound once, a look-up finds whatever binding of a name there is.
-/

namespace NetImport

section ByName

variable {α : Type} {entries : List (String × α)} {name : String} {value : α}

theorem find?_name_eq_none_iff :
    (entries.find? fun entry => entry.1 = name).map Prod.snd = none ↔
      name ∉ entries.map Prod.fst := by
  rw [Option.map_eq_none_iff, List.find?_eq_none, List.mem_map]
  constructor
  · rintro hnone ⟨entry, hentry, rfl⟩
    simpa using hnone entry hentry
  · intro hfree entry hentry
    simpa using fun hname => hfree ⟨entry, hentry, hname⟩

theorem find?_name_eq_some_iff (hdistinct : (entries.map Prod.fst).Nodup) :
    (entries.find? fun entry => entry.1 = name).map Prod.snd = some value ↔
      (name, value) ∈ entries := by
  constructor
  · intro hget
    obtain ⟨entry, hfound, rfl⟩ := Option.map_eq_some_iff.mp hget
    have hname : entry.1 = name := by simpa using List.find?_some hfound
    rw [← hname]
    exact List.mem_of_find?_eq_some hfound
  · intro hmem
    cases hget : (entries.find? fun entry => entry.1 = name).map Prod.snd with
    | none => exact absurd (List.mem_map_of_mem hmem) (find?_name_eq_none_iff.mp hget)
    | some other =>
        obtain ⟨entry, hfound, rfl⟩ := Option.map_eq_some_iff.mp hget
        have hname : entry.1 = name := by simpa using List.find?_some hfound
        have hentry := List.mem_of_find?_eq_some hfound
        rw [List.inj_on_of_nodup_map hdistinct hentry hmem hname]

end ByName

namespace Environment

variable {env next : Environment} {name : String} {value : Handle}

theorem get?_eq_none_iff : env.get? name = none ↔ name ∉ env.entries.map Prod.fst :=
  find?_name_eq_none_iff

theorem get?_eq_some_iff : env.get? name = some value ↔ (name, value) ∈ env.entries :=
  find?_name_eq_some_iff env.distinct

theorem bind_eq_ok_iff_free : (∃ next, env.bind name value = .ok next) ↔ env.get? name = none := by
  rw [get?_eq_none_iff, bind]
  split
  · next hbound => simp [hbound]
  · next hfree => simp [hfree]

end Environment
end NetImport
