import NetImport.Numeric.Shortest
import NetImport.Toml.Basic

/-!
# Writing TOML

A text is written in the plainest of four forms that shows it as it is, and
with escapes when none of them does.  Arrays of two items and more go over
several lines.  Tables in an array come last, each under a header.
-/

namespace NetImport
namespace Toml

def longestRun (wanted : Char) (chars : List Char) : Nat :=
  (chars.foldl (fun (longest, run) c =>
    let run := if c == wanted then run + 1 else 0
    (max longest run, run)) (0, 0)).1

def isCode (c : Char) : Bool := (c < ' ' && c != '\t' && c != '\n') || c == '\x7F'

def fourDigits (n : Nat) : List Char :=
  let digits := (Nat.toDigits 16 n).map Char.toUpper
  List.replicate (4 - digits.length) '0' ++ digits

/-- The letter that stands for a character behind a backslash. -/
def escapeLetter? (c : Char) : Option Char :=
  if c == '\x08' then some 'b'
  else if c == '\t' then some 't'
  else if c == '\n' then some 'n'
  else if c == '\x0C' then some 'f'
  else if c == '\r' then some 'r'
  else if c == '\\' then some '\\'
  else none

/-- Escapes what needs it.  In a text of several lines line ends stay, and so do
quotes, up to two in a row. -/
def escape (multiline : Bool) : Nat → List Char → List Char
  | _, [] => []
  | run, c :: rest =>
      if c == '"' then
        if run < (if multiline then 2 else 0) then c :: escape multiline (run + 1) rest
        else '\\' :: c :: escape multiline 0 rest
      else if multiline && c == '\n' then c :: escape multiline 0 rest
      else
        match escapeLetter? c with
        | some letter => '\\' :: letter :: escape multiline 0 rest
        | none =>
            if isCode c then '\\' :: 'u' :: (fourDigits c.toNat ++ escape multiline 0 rest)
            else c :: escape multiline 0 rest

def escaped (multiline : Bool) (text : String) : String :=
  String.ofList (escape multiline 0 text.toList)

def textForm (text : String) : String :=
  let chars := text.toList
  let hasCodes := chars.any isCode
  let hasLines := chars.contains '\n'
  let hasBackslash := chars.contains '\\'
  let doubles := longestRun '"' chars
  let singles := longestRun '\'' chars
  if !hasCodes && !hasBackslash && doubles == 0 && !hasLines then
    "\"" ++ escaped false text ++ "\""
  else if !hasCodes && singles == 0 && !hasLines then "'" ++ text ++ "'"
  else if !hasCodes && !hasBackslash && doubles ≤ 2 then
    "\"\"\"\n" ++ escaped true text ++ "\"\"\""
  else if !hasCodes && singles ≤ 2 then "'''\n" ++ text ++ "'''"
  else if hasLines then "\"\"\"\n" ++ escaped true text ++ "\"\"\""
  else "\"" ++ escaped false text ++ "\""

/-- A real number, which keeps a point when it is finite. -/
def realForm (x : Float) : String :=
  match Binary.ofDouble x with
  | .nan => "nan"
  | .infinite negative => if negative then "-inf" else "inf"
  | .finite negative significand exponent =>
      Decimal.finiteText Binary.double true negative significand exponent

mutual

/-- A value as it stands behind an equals sign. -/
def valueForm : Toml → String
  | .text value => textForm value
  | .integer value => toString value
  | .real value => realForm value
  | .flag value => if value then "true" else "false"
  | .moment written => written
  | .array items =>
      match itemForms items with
      | [] => "[]"
      | [item] => "[" ++ item ++ "]"
      | items => "[\n" ++ String.join (items.map fun item => "    " ++ item ++ ",\n") ++ "]"
  | .table members =>
      match memberForms members with
      | [] => "\x7B\x7D"
      | members => "\x7B " ++ ", ".intercalate members ++ " \x7D"

def itemForms : List Toml → List String
  | [] => []
  | item :: items => valueForm item :: itemForms items

def memberForms : List (String × Toml) → List String
  | [] => []
  | (key, value) :: members => (key ++ " = " ++ valueForm value) :: memberForms members

end

def headedTables? : Toml → Option (List (List (String × Toml)))
  | .array (item :: items) =>
      (item :: items).mapM fun
        | .table members => some members
        | _ => none
  | _ => none

def settingLine (key : String) (value : Toml) : String := key ++ " = " ++ valueForm value ++ "\n"

/-- A document.  Its keys, and those of the tables in its arrays, need no quotes. -/
def document (members : List (String × Toml)) : String :=
  let plain := members.filter fun (_, value) => (headedTables? value).isNone
  let headed := members.flatMap fun (key, value) =>
    ((headedTables? value).getD []).map fun settings => (key, settings)
  String.join (plain.map fun (key, value) => settingLine key value) ++
    String.join (headed.map fun (key, settings) =>
      "\n[[" ++ key ++ "]]\n" ++
        String.join (settings.map fun (name, value) => settingLine name value))

end Toml
end NetImport
