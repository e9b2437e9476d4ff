import NetImport.TextForm.Token

/-!
# Documents in the text notation

A document is a sequence of named values.  A value is a word, a number, a text, a
message in braces or angle brackets, or a list of these.  What fields there are
and what they hold is not the notation's concern.
-/

namespace NetImport
namespace TextForm

inductive Value where
  | word (negative : Bool) (name : String)
  | integer (negative : Bool) (value : Nat) (decimal : Bool)
  | real (negative : Bool) (digits : Nat) (exponent : Int)
  | text (bytes : List UInt8)
  | message (entries : List (String × Value))
  | list (items : List Value)
deriving Repr

def joinTexts : List Token → List UInt8 × List Token
  | .text bytes :: rest =>
      let (more, rest) := joinTexts rest
      (bytes ++ more, rest)
  | rest => ([], rest)

def readScalar? : List Token → Option (Value × List Token)
  | .symbol '-' :: .word name :: rest => some (.word true name, rest)
  | .symbol '-' :: .integer value decimal :: rest => some (.integer true value decimal, rest)
  | .symbol '-' :: .real digits exponent :: rest => some (.real true digits exponent, rest)
  | .word name :: rest => some (.word false name, rest)
  | .integer value decimal :: rest => some (.integer false value decimal, rest)
  | .real digits exponent :: rest => some (.real false digits exponent, rest)
  | .text bytes :: rest =>
      let (more, rest) := joinTexts rest
      some (.text (bytes ++ more), rest)
  | _ => none

def dropSeparator : List Token → List Token
  | .symbol ',' :: rest => rest
  | .symbol ';' :: rest => rest
  | rest => rest

mutual

def readEntries? : Nat → Option Char → List Token →
    Option (List (String × Value) × List Token)
  | 0, _, _ => none
  | _ + 1, close, [] => if close.isNone then some ([], []) else none
  | _ + 1, close, .symbol c :: rest => if close = some c then some ([], rest) else none
  | fuel + 1, close, .word name :: rest => do
      let (value, rest) ← readField? fuel rest
      let (entries, rest) ← readEntries? fuel close (dropSeparator rest)
      return ((name, value) :: entries, rest)
  | _ + 1, _, _ => none

/-- Reads the value behind a name.  Only a message may do without the colon. -/
def readField? : Nat → List Token → Option (Value × List Token)
  | 0, _ => none
  | _ + 1, .symbol ':' :: .symbol '[' :: .symbol ']' :: rest => some (.list [], rest)
  | fuel + 1, .symbol ':' :: .symbol '[' :: rest => do
      let (items, rest) ← readItems? fuel rest
      return (.list items, rest)
  | fuel + 1, .symbol ':' :: rest => readValue? fuel rest
  | fuel + 1, rest => readMessage? fuel rest

def readValue? : Nat → List Token → Option (Value × List Token)
  | 0, _ => none
  | fuel + 1, rest =>
      match readScalar? rest with
      | some result => some result
      | none => readMessage? fuel rest

def readMessage? : Nat → List Token → Option (Value × List Token)
  | fuel + 1, .symbol '{' :: rest => do
      let (entries, rest) ← readEntries? fuel (some '}') rest
      return (.message entries, rest)
  | fuel + 1, .symbol '<' :: rest => do
      let (entries, rest) ← readEntries? fuel (some '>') rest
      return (.message entries, rest)
  | _, _ => none

def readItems? : Nat → List Token → Option (List Value × List Token)
  | 0, _ => none
  | fuel + 1, rest => do
      let (item, rest) ← readValue? fuel rest
      match rest with
      | .symbol ']' :: rest => return ([item], rest)
      | .symbol ',' :: rest =>
          let (items, rest) ← readItems? fuel rest
          return (item :: items, rest)
      | _ => none

end

/-- Between two tokens the reader goes down no more than four calls. -/
def stepsPerToken : Nat := 4

/-- Reads a whole document. -/
def document? (text : String) : Option (List (String × Value)) := do
  let tokens ← tokens? text
  let (entries, _) ← readEntries? (stepsPerToken * (tokens.length + 1)) none tokens
  return entries

end TextForm
end NetImport
