import NetImport.Numeric.Binary
import NetImport.Tensor.Shape

/-!
# Extents in words

Extents, counts and positions are words of some number of bits, and of a sum or a product only
the word that is left is kept.  A signed word shares the upper half of the words with the
negative numbers.  The definitions beside this module do without words; where the exact number
is a word itself, both are the same.
-/

namespace NetImport
namespace Word

/-- The word that is left of a number. -/
def hold (bits n : Nat) : Nat := n % twoPow bits

def add (bits a b : Nat) : Nat := hold bits (a + b)

def mul (bits a b : Nat) : Nat := hold bits (a * b)

/-- The signed word that is left of a number. -/
def signed (bits : Nat) (i : Int) : Int := i.bmod (twoPow bits)

end Word

/-- The product, taken from the first extent on. -/
def productInWords (bits : Nat) (dims : List Nat) : Nat :=
  dims.foldl (Word.mul bits) (Word.hold bits 1)

def totalInWords (bits : Nat) (terms : List Nat) : Nat :=
  terms.foldl (Word.add bits) (Word.hold bits 0)

/-- The strides, scanned from the last axis to the first. -/
def stridesInWords (bits : Nat) (dims : List Nat) : List Nat :=
  (dims.foldr (fun extent state => (Word.mul bits state.1 extent, state.1 :: state.2))
    (Word.hold bits 1, [])).2

namespace Shape

/-- The extents of a shape are words, and so is their product. -/
def FitsWords (bits : Nat) (shape : Shape) : Prop :=
  (∀ extent ∈ shape.dims, extent < twoPow bits) ∧ shape.count < twoPow bits

instance (bits : Nat) (shape : Shape) : Decidable (shape.FitsWords bits) :=
  inferInstanceAs (Decidable (_ ∧ _))

def countInWords (bits : Nat) (shape : Shape) : Nat := productInWords bits shape.dims

/-- Adds up the position axis by axis, up to the first coordinate that reaches its extent. -/
def flatIndexInWords? (bits : Nat) (shape : Shape) (coords : List Nat) : Option Nat :=
  if coords.length = shape.rank then
    ((coords.zip shape.dims).zip (stridesInWords bits shape.dims)).foldlM
      (fun position axis =>
        if axis.1.1 < axis.1.2 then
          some (Word.add bits position (Word.mul bits axis.1.1 axis.2))
        else none)
      (Word.hold bits 0)
  else none

end Shape
end NetImport
