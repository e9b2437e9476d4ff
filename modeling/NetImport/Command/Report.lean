import NetImport.Session.Basic

/-!
# Reports of commands

A command prints lines until it is done or fails; what was printed before a
failure stays.
-/

namespace NetImport

inductive CommandError where
  | importing (path : String) (cause : LoadError)
  | verification (cause : GraphError)
  | session (cause : SessionError)
deriving DecidableEq, Repr

namespace CommandError

def message : CommandError → String
  | .importing path cause => s!"failed to import '{path}': {cause.message}"
  | .verification cause => cause.message
  | .session cause => cause.message

end CommandError

namespace Report

def banner (title : String) : List String :=
  ["╔══════════════════════════════════════════════════════╗",
    "║" ++ title ++ "║",
    "╚══════════════════════════════════════════════════════╝",
    ""]

def rule (width : Nat) : String := String.ofList (List.replicate width '-')

end Report
end NetImport
