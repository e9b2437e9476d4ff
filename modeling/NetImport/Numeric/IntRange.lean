/-!
# Integer ranges

The integers that a word of fixed width holds, with a sign or without.
-/

namespace NetImport

/-- All integers from `lowest` to `highest`. -/
structure IntRange where
  lowest : Int
  highest : Int
deriving DecidableEq, Repr

namespace IntRange

def signed8 : IntRange := ⟨-128, 127⟩
def unsigned8 : IntRange := ⟨0, 255⟩
def signed32 : IntRange := ⟨-2147483648, 2147483647⟩
def unsigned32 : IntRange := ⟨0, 4294967295⟩
def signed64 : IntRange := ⟨-9223372036854775808, 9223372036854775807⟩

instance : Membership Int IntRange := ⟨fun range i => range.lowest ≤ i ∧ i ≤ range.highest⟩

theorem mem_iff {range : IntRange} {i : Int} :
    i ∈ range ↔ range.lowest ≤ i ∧ i ≤ range.highest := Iff.rfl

instance (i : Int) (range : IntRange) : Decidable (i ∈ range) :=
  decidable_of_iff _ mem_iff.symm

def clamp (range : IntRange) (i : Int) : Int := max range.lowest (min range.highest i)

theorem clamp_mem {range : IntRange} (hne : range.lowest ≤ range.highest) (i : Int) :
    range.clamp i ∈ range := by
  rw [mem_iff, clamp]
  omega

theorem clamp_mono {range : IntRange} {i j : Int} (hle : i ≤ j) :
    range.clamp i ≤ range.clamp j := by
  unfold clamp
  omega

end IntRange
end NetImport
