/-!
# Columns of text

Report columns are padded with blanks to a least width or cut to a greatest one.
Widths are counted in characters.
-/

namespace NetImport
namespace Layout

def blanks (count : Nat) : String := String.ofList (List.replicate count ' ')

/-- Pads on the right. -/
def left (width : Nat) (text : String) : String := text ++ blanks (width - text.length)

/-- Pads on the left. -/
def right (width : Nat) (text : String) : String := blanks (width - text.length) ++ text

/-- A text of more than `most` characters ends in three dots, which stand for what is
left out. -/
def truncate (most : Nat) (text : String) : String :=
  if text.length ≤ most then text else String.ofList (text.toList.take (most - 3)) ++ "..."

end Layout
end NetImport
