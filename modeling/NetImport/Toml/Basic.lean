/-!
# TOML values

A document is a table.  Tables keep their members in the order in which they
first came up, and no key comes twice.
-/

namespace NetImport

inductive Toml where
  | text (value : String)
  /-- A whole number of 64 signed bits. -/
  | integer (value : Int)
  | real (value : Float)
  | flag (value : Bool)
  /-- A date, a time or both, as it was written. -/
  | moment (written : String)
  | array (items : List Toml)
  | table (members : List (String × Toml))

namespace Toml

def member? (members : List (String × Toml)) (key : String) : Option Toml := members.lookup key

end Toml
end NetImport
