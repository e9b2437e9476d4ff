import NetImport.Files.Path

/-!
# Files

Nets and configurations are read from a store: a table from paths to contents.
A directory is there when a file lies in it, and a path is followed part by part.
-/

namespace NetImport

inductive FileError where
  | notFound
  | notDirectory
  /-- The path leads to a directory. -/
  | directory
  | denied
  | other (detail : String)
deriving DecidableEq, Repr

namespace FileError

def readMessage : FileError → String
  | .notFound => "No such file or directory (os error 2)"
  | .notDirectory => "Not a directory (os error 20)"
  | .directory => "Is a directory (os error 21)"
  | .denied => "Permission denied (os error 13)"
  | .other detail => detail

def mapMessage : FileError → String
  | .directory => "No such device (os error 19)"
  | error => error.readMessage

end FileError

abbrev FileReader := String → Except FileError (List UInt8)

structure FileStore where
  entries : List (String × List UInt8)

namespace FileStore

def file? (store : FileStore) (parts : List String) : Option (List UInt8) :=
  (store.entries.reverse.find? fun entry => Path.parts entry.1 == parts).map Prod.snd

/-- There is something inside a directory, or paths start from it. -/
def isDirectory (store : FileStore) (parts : List String) : Bool :=
  parts == [] || parts == [""] ||
    store.entries.any fun entry => parts.isPrefixOf (Path.parts entry.1)

def follow (store : FileStore) (directory : List String) :
    List String → Except FileError (List UInt8)
  | [] => .error .directory
  | part :: parts =>
      if part == "" || part == "." then store.follow directory parts
      else if part == ".." then store.follow directory.dropLast parts
      else
        let here := directory ++ [part]
        match store.file? here with
        | some contents => if parts.isEmpty then .ok contents else .error .notDirectory
        | none => if store.isDirectory here then store.follow here parts else .error .notFound

def read (store : FileStore) : FileReader := fun path =>
  if path = "" then .error .notFound
  else store.follow (if path.startsWith "/" then [""] else []) (path.splitOn "/")

end FileStore
end NetImport
