import NetImport.Proofs.Tensor.RowMajor
import NetImport.Tensor.Words
import Mathlib.Data.Set.Function
import Mathlib.Order.Interval.Set.Defs

/-!
# Counts and positions in words

Counts, strides and positions in words are what is left of the exact ones.  In a shape whose
elements are fewer than the words, every position is a word and nothing is lost.  In any other
shape the coordinates outnumber the words, and positions no longer tell them apart.
-/

namespace NetImport

variable {bits : Nat}

namespace Word

theorem hold_lt (bits n : Nat) : hold bits n < twoPow bits :=
  Nat.mod_lt _ (Nat.two_pow_pos bits)

theorem hold_eq {n : Nat} (hn : n < twoPow bits) : hold bits n = n :=
  Nat.mod_eq_of_lt hn

theorem add_eq {a b : Nat} (hsum : a + b < twoPow bits) : add bits a b = a + b :=
  hold_eq hsum

theorem mul_eq {a b : Nat} (hproduct : a * b < twoPow bits) : mul bits a b = a * b :=
  hold_eq hproduct

@[simp] theorem add_hold_left (bits a b : Nat) : add bits (hold bits a) b = hold bits (a + b) :=
  Nat.mod_add_mod ..

@[simp] theorem add_hold_right (bits a b : Nat) : add bits a (hold bits b) = hold bits (a + b) :=
  Nat.add_mod_mod ..

@[simp] theorem mul_hold_left (bits a b : Nat) : mul bits (hold bits a) b = hold bits (a * b) :=
  Nat.mod_mul_mod ..

@[simp] theorem mul_hold_right (bits a b : Nat) : mul bits a (hold bits b) = hold bits (a * b) :=
  Nat.mul_mod_mod ..

theorem add_hold_hold (bits a b : Nat) :
    add bits (hold bits a) (hold bits b) = hold bits (a + b) := by
  rw [add_hold_left]
  exact Nat.add_mod_mod ..

/-- A number in the range of the signed words is one of them. -/
theorem signed_eq {i : Int} (hlow : -twoPow bits ≤ 2 * i) (hhigh : 2 * i < twoPow bits) :
    signed bits i = i := by
  apply Int.bmod_eq_of_le_mul_two <;> omega

end Word

theorem foldl_mul (bits start : Nat) (dims : List Nat) :
    dims.foldl (Word.mul bits) (Word.hold bits start) = Word.hold bits (start * product dims) := by
  induction dims generalizing start with
  | nil => simp
  | cons d dims ih => rw [List.foldl_cons, Word.mul_hold_left, ih, product_cons, Nat.mul_assoc]

theorem productInWords_eq_hold (bits : Nat) (dims : List Nat) :
    productInWords bits dims = Word.hold bits (product dims) := by
  rw [productInWords, foldl_mul, Nat.one_mul]

theorem productInWords_eq {dims : List Nat} (hcount : product dims < twoPow bits) :
    productInWords bits dims = product dims := by
  rw [productInWords_eq_hold, Word.hold_eq hcount]

theorem foldl_add_words (bits start : Nat) (terms : List Nat) :
    terms.foldl (Word.add bits) (Word.hold bits start) = Word.hold bits (start + total terms) := by
  induction terms generalizing start with
  | nil => rfl
  | cons term terms ih => rw [List.foldl_cons, Word.add_hold_left, ih, total_cons, Nat.add_assoc]

theorem totalInWords_eq_hold (bits : Nat) (terms : List Nat) :
    totalInWords bits terms = Word.hold bits (total terms) := by
  rw [totalInWords, foldl_add_words, Nat.zero_add]

theorem stridesInWords_eq_map (bits : Nat) (dims : List Nat) :
    stridesInWords bits dims = (strides dims).map (Word.hold bits) := by
  have hscan : dims.foldr
      (fun extent state => (Word.mul bits state.1 extent, state.1 :: state.2))
      (Word.hold bits 1, []) =
        (Word.hold bits (product dims), (strides dims).map (Word.hold bits)) := by
    induction dims with
    | nil => rfl
    | cons d dims ih =>
        rw [List.foldr_cons, ih, Word.mul_hold_left, product_cons, strides, List.map_cons,
          Nat.mul_comm]
  rw [stridesInWords, hscan]

namespace Shape

variable {dims coords : List Nat}

theorem countInWords_eq_hold (bits : Nat) (shape : Shape) :
    shape.countInWords bits = Word.hold bits shape.count :=
  productInWords_eq_hold bits shape.dims

theorem foldlM_position_words (hlength : coords.length = dims.length) (start : Nat) :
    ((coords.zip dims).zip (stridesInWords bits dims)).foldlM (fun position axis =>
        if axis.1.1 < axis.1.2 then
          some (Word.add bits position (Word.mul bits axis.1.1 axis.2))
        else none) (Word.hold bits start) =
      if inBounds dims coords then some (Word.hold bits (start + offset dims coords)) else none := by
  rw [stridesInWords_eq_map]
  induction dims generalizing coords start with
  | nil =>
      obtain rfl := List.eq_nil_of_length_eq_zero hlength
      rfl
  | cons d dims ih =>
      cases coords with
      | nil => simp at hlength
      | cons c coords =>
          have hrest := ih (Nat.succ.inj hlength) (start + c * product dims)
          rw [strides, List.map_cons, List.zip_cons_cons, List.zip_cons_cons, List.foldlM_cons]
          by_cases hbelow : c < d
          · rw [if_pos hbelow, Word.mul_hold_right, Word.add_hold_hold]
            exact hrest.trans (by simp [inBounds, hbelow, Nat.add_assoc])
          · rw [if_neg hbelow]
            simp [inBounds, hbelow]

/-- A position in words is what is left of the position, for the same coordinates. -/
theorem flatIndexInWords?_eq_map (bits : Nat) (dims coords : List Nat) :
    flatIndexInWords? bits ⟨dims⟩ coords = (flatIndex? ⟨dims⟩ coords).map (Word.hold bits) := by
  unfold flatIndexInWords? flatIndex?
  by_cases hlength : coords.length = (Shape.mk dims).rank
  · rw [if_pos hlength, foldlM_position_words hlength, Nat.zero_add]
    split <;> rfl
  · rw [if_neg hlength, if_neg (mt length_of_inBounds hlength)]
    rfl

theorem flatIndexInWords?_eq (hcount : product dims < twoPow bits) (coords : List Nat) :
    flatIndexInWords? bits ⟨dims⟩ coords = flatIndex? ⟨dims⟩ coords := by
  rw [flatIndexInWords?_eq_map]
  unfold flatIndex?
  split
  · next hinside =>
      rw [Option.map_some, Word.hold_eq (Nat.lt_trans (offset_lt hinside) hcount)]
  · rfl

end Shape
end NetImport
