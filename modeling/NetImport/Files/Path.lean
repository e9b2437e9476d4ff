/-!
# File paths

A path is a text whose parts are separated by slashes.  Empty parts and single
dots inside a path say nothing; the name of a file is the last part that does,
and its extension is what follows the last dot of the name, unless the name
begins with that dot.
-/

namespace NetImport
namespace Path

/-- Drops slashes and single dots from the end of a path, which is given in
reverse.  A root stays. -/
def dropIdleEnd : List Char → List Char
  | '/' :: c :: rest => dropIdleEnd (c :: rest)
  | '.' :: '/' :: rest => dropIdleEnd ('/' :: rest)
  | chars => chars

/-- A path in reverse, without the parts at its end that say nothing. -/
def reversed (path : String) : List Char := dropIdleEnd path.toList.reverse

def fileName? (path : String) : Option String :=
  let name := String.ofList ((reversed path).takeWhile (· != '/')).reverse
  if name = "" ∨ name = "." ∨ name = ".." then none else some name

/-- A name before and after its last dot; the second part is missing when there is
no dot but at the front. -/
def splitName (name : String) : String × Option String :=
  let chars := name.toList.reverse
  let after := chars.takeWhile (· != '.')
  match chars.drop after.length with
  | _ :: c :: before =>
      (String.ofList (c :: before).reverse, some (String.ofList after.reverse))
  | _ => (name, none)

def extension? (path : String) : Option String := do (splitName (← fileName? path)).2

/-- The name without its extension. -/
def stem? (path : String) : Option String := (fileName? path).map fun name => (splitName name).1

/-- The directory of what a path leads to; a root has none. -/
def parent? (path : String) : Option String :=
  let chars := reversed path
  if chars = [] ∨ chars = ['/'] then none
  else some (String.ofList (dropIdleEnd (chars.dropWhile (· != '/'))).reverse)

def join (directory path : String) : String :=
  if path.startsWith "/" then path
  else if directory = "" ∨ directory.endsWith "/" then directory ++ path
  else directory ++ "/" ++ path

def parts (path : String) : List String :=
  let named := (path.splitOn "/").filter fun part => part != "" && part != "."
  if path.startsWith "/" then "" :: named else named

end Path
end NetImport
