import NetImport.Tensor.Basic
import NetImport.Text.Digits

/-!
# Input arguments

On the command line an input is a name and its type: the extents with an `x`
between them, and behind a colon the element type, as in `data=1x3x8x8` and
`ids=4:i64`.  No extents at all make a scalar.
-/

namespace NetImport

structure InputArgument where
  name : String
  dims : List Nat
  dtype : DType
deriving DecidableEq, Repr

/-- Why a text is no input argument. -/
inductive InputArgumentError where
  | noEquals (text : String)
  | noName (text : String)
  | unknownDType (label : String)
  | invalidExtent (extent text : String)
deriving DecidableEq, Repr

namespace InputArgumentError

def message : InputArgumentError → String
  | .noEquals text => s!"expected name=dims[:dtype], got '{text}'"
  | .noName text => s!"input '{text}' has no name"
  | .unknownDType label => s!"unknown dtype '{label}'"
  | .invalidExtent extent text => s!"invalid dimension '{extent}' in '{text}'"

end InputArgumentError

namespace InputArgument

/-- The parts before and after the first mark, if there is one. -/
def cutAt? (mark : Char) : List Char → Option (List Char × List Char)
  | [] => none
  | c :: rest =>
      if c = mark then some ([], rest)
      else (cutAt? mark rest).map fun (before, after) => (c :: before, after)

theorem cutAt?_eq_none_iff {mark : Char} {chars : List Char} :
    cutAt? mark chars = none ↔ mark ∉ chars := by
  induction chars with
  | nil => simp [cutAt?]
  | cons c rest ih =>
      by_cases hmark : c = mark
      · simp [cutAt?, hmark]
      · simp [cutAt?, hmark, ih, Ne.symm hmark]

/-- The cut is at the first mark, and nothing is lost. -/
theorem cutAt?_eq_some_iff {mark : Char} {chars before after : List Char} :
    cutAt? mark chars = some (before, after) ↔
      mark ∉ before ∧ chars = before ++ mark :: after := by
  induction chars generalizing before with
  | nil => simp [cutAt?]
  | cons c rest ih =>
      by_cases hmark : c = mark
      · cases before with
        | nil => simp [cutAt?, hmark]
        | cons b before =>
            simp only [cutAt?, hmark, if_true, List.cons_append, List.cons.injEq]
            constructor
            · intro hcut
              cases hcut
            · intro ⟨hfree, hhead, _⟩
              exact absurd (hhead ▸ List.mem_cons_self) hfree
      · cases before with
        | nil =>
            simp [cutAt?, hmark]
        | cons b before =>
            have hrest := @ih before
            simp only [cutAt?, hmark, if_false, Option.map_eq_some_iff, Prod.exists,
              Prod.mk.injEq, List.cons.injEq, List.cons_append, List.mem_cons, not_or]
            constructor
            · rintro ⟨before', after', hcut, ⟨hhead, hbefore⟩, hafter⟩
              subst hhead hbefore hafter
              exact ⟨⟨Ne.symm hmark, (hrest.mp hcut).1⟩, rfl, (hrest.mp hcut).2⟩
            · rintro ⟨⟨_, hfree⟩, hhead, htail⟩
              exact ⟨before, after, hrest.mpr ⟨hfree, htail⟩, ⟨hhead, rfl⟩, rfl⟩

/-- The parts between all marks. -/
def splitAll (mark : Char) : List Char → List (List Char)
  | [] => [[]]
  | c :: rest =>
      if c = mark then [] :: splitAll mark rest
      else
        match splitAll mark rest with
        | [] => [[c]]
        | part :: parts => (c :: part) :: parts

/-- An extent is a decimal number of 64 bits, which may have a plus sign. -/
def extent? (chars : List Char) : Option Nat :=
  let digits :=
    match chars with
    | '+' :: digits => digits
    | digits => digits
  let value := Digits.numberOf 10 digits
  if digits ≠ [] ∧ digits.all Digits.isDigit ∧ value < UInt64.size then some value else none

def readExtents (text : String) : List (List Char) → Except InputArgumentError (List Nat)
  | [] => .ok []
  | part :: parts =>
      match extent? part with
      | none => .error (.invalidExtent (String.ofList part) text)
      | some extent => do return extent :: (← readExtents text parts)

def readDims (text : String) (chars : List Char) : Except InputArgumentError (List Nat) :=
  if chars = [] then .ok [] else readExtents text (splitAll 'x' chars)

/-- The part before the colon, and the element type behind it. -/
def readType (chars : List Char) : Except InputArgumentError (List Char × DType) :=
  match cutAt? ':' chars with
  | none => .ok (chars, .f32)
  | some (dims, label) =>
      match DType.parse? (String.ofList label) with
      | some dtype => .ok (dims, dtype)
      | none => .error (.unknownDType (String.ofList label))

def ofText (text : String) : Except InputArgumentError InputArgument :=
  match cutAt? '=' text.toList with
  | none => .error (.noEquals text)
  | some ([], _) => .error (.noName text)
  | some (name, rest) => do
      let (dims, dtype) ← readType rest
      return ⟨String.ofList name, ← readDims text dims, dtype⟩

def text (argument : InputArgument) : String :=
  argument.name ++ "=" ++ "x".intercalate (argument.dims.map toString) ++ ":" ++
    argument.dtype.label

def type (argument : InputArgument) : TensorType := ⟨argument.dtype, ⟨argument.dims⟩⟩

end InputArgument
end NetImport
