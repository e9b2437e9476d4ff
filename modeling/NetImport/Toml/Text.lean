import NetImport.Text.Digits

/-!
# Texts in TOML

A text stands between double quotes, with escapes, or between single quotes,
without.  Three quotes open a text of several lines, in which fewer than three
quotes in a row stand for themselves, and up to two more may stand directly
before the closing ones.
-/

namespace NetImport
namespace Toml

open Digits

def isSpace (c : Char) : Bool := c == ' ' || c == '\t'

def skipSpaces (chars : List Char) : List Char := chars.dropWhile isSpace

/-- The characters of a line: no control character but the tab. -/
def isLineChar (c : Char) : Bool := c == '\t' || (' ' ≤ c && c != '\x7F')

/-- The rest behind a line end. -/
def lineEnd? : List Char → Option (List Char)
  | '\n' :: rest => some rest
  | '\r' :: '\n' :: rest => some rest
  | _ => none

/-- Drops spaces and line ends. -/
def skipSpacesAndLines : List Char → List Char
  | '\r' :: '\n' :: rest => skipSpacesAndLines rest
  | c :: rest => if isSpace c || c == '\n' then skipSpacesAndLines rest else c :: rest
  | [] => []

def shortEscape? : Char → Option Char
  | 'b' => some '\x08'
  | 't' => some '\t'
  | 'n' => some '\n'
  | 'f' => some '\x0C'
  | 'r' => some '\r'
  | '"' => some '"'
  | '\\' => some '\\'
  | _ => none

/-- A character given by exactly `count` hexadecimal digits. -/
def codePoint? (count : Nat) (chars : List Char) : Option (Char × List Char) :=
  let digits := (chars.take count).takeWhile isHex
  let value := numberOf 16 digits
  if digits.length = count ∧ value.isValidChar then
    some (Char.ofNat value, chars.drop count)
  else none

def readEscape? : List Char → Option (Char × List Char)
  | 'u' :: rest => codePoint? 4 rest
  | 'U' :: rest => codePoint? 8 rest
  | letter :: rest => (shortEscape? letter).map fun c => (c, rest)
  | [] => none

/-- Reads a text of one line up to its closing quote.  Every step takes a character
off. -/
def readLine? : Nat → Char → List Char → Option (List Char × List Char)
  | 0, _, _ => none
  | _ + 1, _, [] => none
  | fuel + 1, quote, c :: rest =>
      if c == quote then some ([], rest)
      else if !isLineChar c then none
      else do
        let (c, rest) ← if c == '\\' && quote == '"' then readEscape? rest else some (c, rest)
        let (more, rest) ← readLine? fuel quote rest
        return (c :: more, rest)

/-- The rest behind a backslash at the end of a line, with the blank lines and the
indentation that follow. -/
def joinedLine? (chars : List Char) : Option (List Char) :=
  (lineEnd? (skipSpaces chars)).map skipSpacesAndLines

/-- Reads a text of several lines up to its closing quotes.  Every step takes a
character off. -/
def readLines? : Nat → Char → List Char → Option (List Char × List Char)
  | 0, _, _ => none
  | _ + 1, _, [] => none
  | fuel + 1, quote, c :: rest =>
      let follow (read : List Char) (rest : List Char) : Option (List Char × List Char) := do
        let (more, rest) ← readLines? fuel quote rest
        return (read ++ more, rest)
      if c == quote then
        let more := (rest.takeWhile (· == quote)).length
        let rest := rest.drop more
        if more < 2 then follow (List.replicate (more + 1) quote) rest
        else if more ≤ 4 then some (List.replicate (more - 2) quote, rest)
        else none
      else if c == '\\' && quote == '"' then
        match joinedLine? rest with
        | some rest => follow [] rest
        | none => do
            let (c, rest) ← readEscape? rest
            follow [c] rest
      else
        match lineEnd? (c :: rest) with
        | some rest => follow ['\n'] rest
        | none => if isLineChar c then follow [c] rest else none

/-- Reads a text behind its first quote.  A line end directly behind three opening
quotes is no part of the text. -/
def readQuoted? (quote : Char) (chars : List Char) : Option (String × List Char) := do
  let (content, rest) ←
    if chars.take 2 == [quote, quote] then
      let rest := chars.drop 2
      let rest := (lineEnd? rest).getD rest
      readLines? (rest.length + 1) quote rest
    else readLine? (chars.length + 1) quote chars
  return (String.ofList content, rest)

end Toml
end NetImport
