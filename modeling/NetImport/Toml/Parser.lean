import NetImport.Toml.Assembly
import NetImport.Toml.Number
import NetImport.Toml.Text

/-!
# Reading TOML

Every statement has a line of its own; only arrays and texts go over several
lines.  Arrays and braced tables nest to a fixed depth, which bounds the recursion.
-/

namespace NetImport
namespace Toml

/-- The number of levels of arrays and braced tables that a value may have, and of
parts that a key may have. -/
def levelLimit : Nat := 79

def isBareChar (c : Char) : Bool :=
  Digits.isDigit c || ('a' ≤ c && c ≤ 'z') || ('A' ≤ c && c ≤ 'Z') || c == '_' || c == '-'

def readKeyPart? : List Char → Option (String × List Char)
  | [] => none
  | c :: rest =>
      if c == '"' || c == '\'' then do
        let (part, rest) ← readLine? (rest.length + 1) c rest
        return (String.ofList part, rest)
      else
        let part := (c :: rest).takeWhile isBareChar
        if part = [] then none
        else some (String.ofList part, (c :: rest).dropWhile isBareChar)

def readKeyParts? : Nat → List Char → Option (List String × List Char)
  | 0, _ => none
  | parts + 1, chars => do
      let (part, rest) ← readKeyPart? (skipSpaces chars)
      match skipSpaces rest with
      | '.' :: rest =>
          let (more, rest) ← readKeyParts? parts rest
          return (part :: more, rest)
      | rest => return ([part], rest)

def readKey? (chars : List Char) : Option (List String × List Char) :=
  readKeyParts? levelLimit chars

/-- The rest behind a comment and the end of its line or of the document. -/
def endLine? (chars : List Char) : Option (List Char) :=
  match skipSpaces chars with
  | [] => some []
  | '#' :: rest =>
      match rest.dropWhile isLineChar with
      | [] => some []
      | rest => lineEnd? rest
  | rest => lineEnd? rest

/-- Drops spaces, line ends and comments inside an array.  Every step takes a line
off. -/
def skipFiller : Nat → List Char → List Char
  | 0, chars => chars
  | lines + 1, chars =>
      match skipSpaces chars with
      | [] => []
      | c :: rest =>
          if c == '#' || c == '\n' || c == '\r' then
            match endLine? (c :: rest) with
            | some rest => skipFiller lines rest
            | none => c :: rest
          else c :: rest

/-- Drops all filler at the front. -/
def skipAllFiller (chars : List Char) : List Char := skipFiller chars.length chars

/-- Reads items behind an opening bracket.  A comma may stand behind the last one. -/
def readItems? (readItem : List Char → Option (Toml × List Char)) :
    Nat → List Char → Option (List Toml × List Char)
  | 0, _ => none
  | fuel + 1, chars =>
      match skipAllFiller chars with
      | ']' :: rest => some ([], rest)
      | chars => do
          let (item, rest) ← readItem chars
          match skipAllFiller rest with
          | ']' :: rest => return ([item], rest)
          | ',' :: rest =>
              let (items, rest) ← readItems? readItem fuel rest
              return (item :: items, rest)
          | _ => none

def readSetting? (readItem : List Char → Option (Toml × List Char)) (chars : List Char) :
    Option (Statement × List Char) := do
  let (path, rest) ← readKey? chars
  let (value, rest) ← readItem (skipSpaces (← readMark? '=' rest))
  return (.setting path value, rest)

/-- Reads settings up to a closing brace, at least one, all on one line. -/
def readBraced? (readItem : List Char → Option (Toml × List Char)) :
    Nat → List Char → Option (List Statement × List Char)
  | 0, _ => none
  | fuel + 1, chars => do
      let (setting, rest) ← readSetting? readItem chars
      match skipSpaces rest with
      | '}' :: rest => return ([setting], rest)
      | ',' :: rest =>
          let (settings, rest) ← readBraced? readItem fuel rest
          return (setting :: settings, rest)
      | _ => none

/-- Reads a value without parts. -/
def readScalar? : List Char → Option (Toml × List Char)
  | '"' :: rest => (readQuoted? '"' rest).map fun (quoted, rest) => (.text quoted, rest)
  | '\'' :: rest => (readQuoted? '\'' rest).map fun (quoted, rest) => (.text quoted, rest)
  | 't' :: 'r' :: 'u' :: 'e' :: rest => some (.flag true, rest)
  | 'f' :: 'a' :: 'l' :: 's' :: 'e' :: rest => some (.flag false, rest)
  | chars => readMoment? chars <|> readNumber? chars

def readValue? : Nat → List Char → Option (Toml × List Char)
  | levels + 1, '[' :: rest => do
      let (items, rest) ← readItems? (readValue? levels) (rest.length + 1) rest
      return (.array items, rest)
  | levels + 1, '{' :: rest =>
      match skipSpaces rest with
      | '}' :: rest => some (.table [], rest)
      | rest => do
          let (settings, rest) ← readBraced? (readValue? levels) (rest.length + 1) rest
          return (.table (← assemble? settings), rest)
  | _, chars => readScalar? chars

/-- Reads a statement that begins at the first character. -/
def readStatement? : List Char → Option (Statement × List Char)
  | '[' :: '[' :: rest => do
      let (path, rest) ← readKey? rest
      return (.tables path, ← readMark? ']' (← readMark? ']' rest))
  | '[' :: rest => do
      let (path, rest) ← readKey? rest
      return (.table path, ← readMark? ']' rest)
  | chars => readSetting? (readValue? levelLimit) chars

/-- Reads the statements of a document.  Every step takes a line off. -/
def readStatements? : Nat → List Char → Option (List Statement)
  | 0, _ => none
  | fuel + 1, chars =>
      match skipSpaces chars with
      | [] => some []
      | c :: rest =>
          if c == '#' || c == '\n' || c == '\r' then do
            readStatements? fuel (← endLine? (c :: rest))
          else do
            let (statement, rest) ← readStatement? (c :: rest)
            let statements ← readStatements? fuel (← endLine? rest)
            return statement :: statements

/-- Reads a document, which may begin with a byte order mark. -/
def parse? (text : String) : Option (List (String × Toml)) := do
  let chars :=
    match text.toList with
    | '\uFEFF' :: rest => rest
    | chars => chars
  assemble? (← readStatements? (chars.length + 1) chars)

end Toml
end NetImport
