import NetImport.Toml.Basic

/-!
# Tables out of settings

A document settles its tables piece by piece: by headers, by the leading parts
of the paths of headers and by the dotted keys of settings.  A table made by one
of these can be extended in some of the other ways and not in all, so while a
document is put together each table remembers how it came about.
-/

namespace NetImport
namespace Toml

inductive Origin where
  /-- By a header of its own; the document has this origin too. -/
  | header
  /-- As a leading part of the path of a header. -/
  | implied
  /-- As a leading part of the key of a setting. -/
  | dotted
deriving DecidableEq, Repr

inductive Entry where
  | value (value : Toml)
  | table (origin : Origin) (entries : List (String × Entry))
  /-- Tables with a common header; further settings go to the latest one. -/
  | tables (earlier : List (List (String × Entry))) (latest : List (String × Entry))

abbrev Entries := List (String × Entry)

def replaceEntry (key : String) (entry : Entry) (entries : Entries) : Entries :=
  entries.map fun member => if member.1 = key then (key, entry) else member

/-- Changes the table at the end of a path.  Tables that are missing on the way are
made; a table with a header of its own is closed to dotted keys. -/
def alterAt (dotted : Bool) (change : Origin → Entries → Option Entries) :
    List String → Origin → Entries → Option Entries
  | [], origin, entries => change origin entries
  | key :: path, _, entries =>
      match entries.lookup key with
      | none => do
          let origin := if dotted then Origin.dotted else .implied
          return entries ++ [(key, .table origin (← alterAt dotted change path origin []))]
      | some (.value _) => none
      | some (.tables earlier latest) => do
          let latest ← alterAt dotted change path .header latest
          return replaceEntry key (.tables earlier latest) entries
      | some (.table origin inner) =>
          if dotted ∧ origin = .header then none
          else do
            let inner ← alterAt dotted change path origin inner
            return replaceEntry key (.table origin inner) entries

/-- Sets a new key.  A dotted key only adds to tables that dotted keys have made. -/
def setKey (isDotted : Bool) (key : String) (value : Toml) (origin : Origin)
    (entries : Entries) : Option Entries :=
  if isDotted ∧ origin ≠ .dotted then none
  else if (entries.lookup key).isSome then none
  else some (entries ++ [(key, .value value)])

/-- Makes a setting in a table that dotted keys start from. -/
def setPath (path : List String) (value : Toml) (origin : Origin) (entries : Entries) :
    Option Entries :=
  match path.getLast? with
  | none => none
  | some key => alterAt true (setKey (1 < path.length) key value) path.dropLast origin entries

/-- Opens a table by its header, once. -/
def openTable (key : String) (entries : Entries) : Option Entries :=
  match entries.lookup key with
  | none => some (entries ++ [(key, .table .header [])])
  | some (.table .implied inner) => some (replaceEntry key (.table .header inner) entries)
  | some _ => none

def openTables (key : String) (entries : Entries) : Option Entries :=
  match entries.lookup key with
  | none => some (entries ++ [(key, .tables [] [])])
  | some (.tables earlier latest) =>
      some (replaceEntry key (.tables (earlier ++ [latest]) []) entries)
  | some _ => none

inductive Statement where
  | setting (path : List String) (value : Toml)
  | table (path : List String)
  | tables (path : List String)

/-- The path of the table that is open, and what the document holds so far. -/
structure Draft where
  header : List String
  entries : Entries

namespace Draft

def empty : Draft := ⟨[], []⟩

def openAt (path : List String) (start : String → Entries → Option Entries)
    (draft : Draft) : Option Draft :=
  match path.getLast? with
  | none => none
  | some key =>
      (alterAt false (fun _ => start key) path.dropLast .header draft.entries).map fun entries =>
        ⟨path, entries⟩

def extend? (draft : Draft) : Statement → Option Draft
  | .setting path value =>
      (alterAt false (setPath path value) draft.header .header draft.entries).map fun entries =>
        ⟨draft.header, entries⟩
  | .table path => draft.openAt path openTable
  | .tables path => draft.openAt path openTables

end Draft

mutual

def Entry.toToml : Entry → Toml
  | .value value => value
  | .table _ entries => .table (membersOf entries)
  | .tables earlier latest => .array (tablesOf earlier ++ [.table (membersOf latest)])

def membersOf : List (String × Entry) → List (String × Toml)
  | [] => []
  | (key, entry) :: entries => (key, entry.toToml) :: membersOf entries

def tablesOf : List (List (String × Entry)) → List Toml
  | [] => []
  | entries :: tables => .table (membersOf entries) :: tablesOf tables

end

def assemble? (statements : List Statement) : Option (List (String × Toml)) :=
  (statements.foldlM Draft.extend? .empty).map fun draft => membersOf draft.entries

end Toml
end NetImport
