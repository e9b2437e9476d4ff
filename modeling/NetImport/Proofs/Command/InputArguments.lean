import NetImport.Command.InputArgument
import NetImport.Proofs.Sequencing
import Mathlib.Data.List.Basic
import Mathlib.Data.List.Forall2

/-!
# The grammar of input arguments

An input argument is a name, an equals sign, extents with an `x` between them and, behind a
colon, a spelling of an element type.  The reader takes the first equals sign and the first
colon behind it for the marks.  It accepts just the texts of the grammar, because no mark can
stand in what comes before it, and so it reads back what is printed.
-/

namespace NetImport

namespace DType

/-- The spellings of an element type, in lower case. -/
def spellings : DType → List String
  | .f32 => ["f32", "float", "float32"]
  | .i8 => ["i8", "int8"]
  | .u8 => ["u8", "uint8"]
  | .i32 => ["i32", "int32"]
  | .i64 => ["i64", "int64"]
  | .bool => ["bool"]

theorem parse?_eq_some_iff {text : String} {dtype : DType} :
    parse? text = some dtype ↔ text.toLower ∈ dtype.spellings := by
  constructor
  · intro hparse
    unfold parse? at hparse
    split at hparse <;> cases hparse <;> simp [spellings, *]
  · intro hspelling
    unfold parse?
    generalize text.toLower = label at hspelling
    cases dtype <;> simp only [spellings, List.mem_cons, List.not_mem_nil, or_false] at hspelling
    all_goals rcases hspelling with rfl | rfl | rfl <;> rfl

theorem parse?_label (dtype : DType) : parse? dtype.label = some dtype := by
  cases dtype <;> decide +kernel

end DType

namespace InputArgument

/-! ## The grammar -/

/-- Some decimal digits, whose value has 64 bits. -/
structure Digits (digits : List Char) (n : Nat) : Prop where
  nonempty : digits ≠ []
  decimal : ∀ c ∈ digits, c.isDigit
  value : Nat.ofDigitChars 10 digits 0 = n
  small : n < UInt64.size

inductive Numeral : List Char → Nat → Prop
  | plain {digits : List Char} {n : Nat} (hdigits : Digits digits n) : Numeral digits n
  | plus {digits : List Char} {n : Nat} (hdigits : Digits digits n) : Numeral ('+' :: digits) n

/-- Nothing at all, or numerals with an `x` between them. -/
inductive Extents : List Char → List Nat → Prop
  | none : Extents [] []
  | some {parts : List (List Char)} {dims : List Nat} (hne : parts ≠ [])
      (hparts : List.Forall₂ Numeral parts dims) : Extents (['x'].intercalate parts) dims

inductive TypeText : List Char → List Nat → DType → Prop
  | unlabelled {chars : List Char} {dims : List Nat} (hdims : Extents chars dims) :
      TypeText chars dims .f32
  | labelled {chars label : List Char} {dims : List Nat} {dtype : DType}
      (hdims : Extents chars dims)
      (hlabel : (String.ofList label).toLower ∈ dtype.spellings) :
      TypeText (chars ++ ':' :: label) dims dtype

/-- The texts of an input argument. -/
structure Spells (text : String) (argument : InputArgument) : Prop where
  named : argument.name ≠ ""
  unambiguous : '=' ∉ argument.name.toList
  typed : ∃ rest, text.toList = argument.name.toList ++ '=' :: rest ∧
    TypeText rest argument.dims argument.dtype

/-! ## Numerals -/

theorem digitValue_of_isDigit {c : Char} (hdigit : c.isDigit) :
    NetImport.Digits.digitValue c = c.toNat - '0'.toNat :=
  if_pos hdigit

theorem numberOf_eq_ofDigitChars {digits : List Char} (hdecimal : ∀ c ∈ digits, c.isDigit) :
    NetImport.Digits.numberOf 10 digits = Nat.ofDigitChars 10 digits 0 := by
  rw [NetImport.Digits.numberOf, Nat.ofDigitChars_eq_foldl]
  apply List.foldl_ext
  intro value c hc
  rw [digitValue_of_isDigit (hdecimal c hc)]

theorem Digits.toDigits {n : Nat} (hsmall : n < UInt64.size) : Digits (Nat.toDigits 10 n) n where
  nonempty := Nat.toDigits_ne_nil
  decimal := fun _ => Nat.isDigit_of_mem_toDigits (by decide : 0 < 10) (Nat.le_refl 10)
  value := Nat.ofDigitChars_ten_toDigits
  small := hsmall

theorem plus_not_mem_of_digits {digits : List Char} {n : Nat} (hdigits : Digits digits n) :
    '+' ∉ digits := by
  intro hplus
  have hdigit := hdigits.decimal _ hplus
  cases hdigit

/-- What the reader makes of the digits behind the sign. -/
theorem digits_iff {digits : List Char} {n : Nat} :
    (if digits ≠ [] ∧ digits.all NetImport.Digits.isDigit ∧
        NetImport.Digits.numberOf 10 digits < UInt64.size
      then some (NetImport.Digits.numberOf 10 digits) else none) = some n ↔ Digits digits n := by
  rw [Option.ite_none_right_eq_some, Option.some.injEq]
  constructor
  · rintro ⟨⟨hne, hall, hsmall⟩, rfl⟩
    have hdecimal : ∀ c ∈ digits, c.isDigit := List.all_eq_true.mp hall
    exact ⟨hne, hdecimal, (numberOf_eq_ofDigitChars hdecimal).symm, hsmall⟩
  · rintro ⟨hne, hdecimal, rfl, hsmall⟩
    rw [numberOf_eq_ofDigitChars hdecimal]
    exact ⟨⟨hne, List.all_eq_true.mpr hdecimal, hsmall⟩, rfl⟩

theorem extent?_eq_some_iff {chars : List Char} {n : Nat} :
    extent? chars = some n ↔ Numeral chars n := by
  unfold extent?
  dsimp only
  split
  · next digits =>
      rw [digits_iff]
      constructor
      · exact .plus
      · rintro (hdigits | hdigits)
        · exact absurd List.mem_cons_self (plus_not_mem_of_digits hdigits)
        · exact hdigits
  · next hsign =>
      rw [digits_iff]
      constructor
      · exact .plain
      · rintro (hdigits | hdigits)
        · exact hdigits
        · exact absurd rfl (hsign _)

theorem readExtents_eq_ok_iff {text : String} {parts : List (List Char)} {dims : List Nat} :
    readExtents text parts = .ok dims ↔ List.Forall₂ Numeral parts dims := by
  induction parts generalizing dims with
  | nil =>
      rw [readExtents, Except.ok.injEq, List.forall₂_nil_left_iff]
      exact eq_comm
  | cons part parts ih =>
      rw [readExtents, List.forall₂_cons_left_iff]
      constructor
      · intro hread
        split at hread
        · cases hread
        · next extent hextent =>
            obtain ⟨rest, hrest, hdims⟩ := bind_eq_ok_iff.mp hread
            exact ⟨extent, rest, extent?_eq_some_iff.mp hextent, ih.mp hrest,
              (Except.ok.inj hdims).symm⟩
      · rintro ⟨extent, rest, hpart, hrest, rfl⟩
        rw [extent?_eq_some_iff.mpr hpart]
        exact bind_eq_ok_iff.mpr ⟨rest, ih.mpr hrest, rfl⟩

/-! ## Marks -/

theorem splitAll_eq_splitOn (mark : Char) (chars : List Char) :
    splitAll mark chars = chars.splitOn mark := by
  induction chars with
  | nil => rfl
  | cons c chars ih =>
      have hne := List.splitOn_ne_nil mark chars
      rw [splitAll, List.splitOn_cons_eq_if_modifyHead, ih]
      cases hparts : chars.splitOn mark with
      | nil => exact absurd hparts hne
      | cons part parts => simp

theorem Numeral.digit_or_plus {chars : List Char} {n : Nat} (hnumeral : Numeral chars n) :
    ∀ c ∈ chars, c.isDigit ∨ c = '+' := by
  rcases hnumeral with hdigits | hdigits
  · exact fun c hc => .inl (hdigits.decimal c hc)
  · intro c hc
    rcases List.mem_cons.mp hc with rfl | hrest
    · exact .inr rfl
    · exact .inl (hdigits.decimal c hrest)

theorem Numeral.ne_nil {chars : List Char} {n : Nat} (hnumeral : Numeral chars n) :
    chars ≠ [] := by
  rcases hnumeral with hdigits | hdigits
  · exact hdigits.nonempty
  · exact List.cons_ne_nil _ _

theorem Numeral.cross_not_mem {chars : List Char} {n : Nat} (hnumeral : Numeral chars n) :
    'x' ∉ chars := by
  intro hcross
  rcases hnumeral.digit_or_plus _ hcross with hdigit | hplus
  · cases hdigit
  · cases hplus

theorem mem_intercalate_numerals {parts : List (List Char)} {dims : List Nat}
    (hparts : List.Forall₂ Numeral parts dims) :
    ∀ c ∈ ['x'].intercalate parts, c.isDigit ∨ c = '+' ∨ c = 'x' := by
  induction hparts with
  | nil => exact fun c hc => absurd hc List.not_mem_nil
  | @cons part n parts dims hpart hrest ih =>
      have hfirst : ∀ c ∈ part, c.isDigit ∨ c = '+' ∨ c = 'x' := fun c hc =>
        (hpart.digit_or_plus c hc).imp_right .inl
      by_cases hlast : parts = []
      · rw [hlast, List.intercalate_singleton]
        exact hfirst
      · rw [List.intercalate_cons_of_ne_nil hlast]
        intro c hc
        rcases List.mem_append.mp hc with hbefore | hafter
        · rcases List.mem_append.mp hbefore with hpart' | hmark
          · exact hfirst c hpart'
          · exact .inr (.inr (List.mem_singleton.mp hmark))
        · exact ih c hafter

/-- Extents end before a colon. -/
theorem Extents.colon_not_mem {chars : List Char} {dims : List Nat}
    (hextents : Extents chars dims) : ':' ∉ chars := by
  rcases hextents with _ | ⟨-, hparts⟩
  · exact List.not_mem_nil
  · intro hcolon
    rcases mem_intercalate_numerals hparts _ hcolon with hdigit | hplus | hcross
    · cases hdigit
    · cases hplus
    · cases hcross

/-! ## What the reader accepts -/

theorem splitAll_intercalate {parts : List (List Char)} {dims : List Nat} (hne : parts ≠ [])
    (hparts : List.Forall₂ Numeral parts dims) :
    splitAll 'x' (['x'].intercalate parts) = parts ∧ ['x'].intercalate parts ≠ [] := by
  have hboth : List.Forall₂ (fun part n => (part ≠ [] ∧ 'x' ∉ part) ∧ Numeral part n)
      parts dims :=
    hparts.imp fun _ _ hpart => ⟨⟨hpart.ne_nil, hpart.cross_not_mem⟩, hpart⟩
  have hfree := (List.forall₂_and_left ..).mp hboth
  have hsplit := List.splitOn_intercalate 'x' (fun part hpart => (hfree.1 part hpart).2) hne
  rw [splitAll_eq_splitOn]
  refine ⟨hsplit, fun hempty => ?_⟩
  -- Only the empty part is split from an empty text, and no numeral is empty.
  rw [hempty, List.splitOn_nil] at hsplit
  exact (hfree.1 [] (hsplit ▸ List.mem_singleton.mpr rfl)).1 rfl

theorem readDims_eq_ok_iff {text : String} {chars : List Char} {dims : List Nat} :
    readDims text chars = .ok dims ↔ Extents chars dims := by
  unfold readDims
  constructor
  · intro hread
    split at hread
    · next hempty =>
        obtain rfl := Except.ok.inj hread
        rw [hempty]
        exact .none
    · rw [readExtents_eq_ok_iff, splitAll_eq_splitOn] at hread
      have hextents := Extents.some (List.splitOn_ne_nil 'x' chars) hread
      rwa [List.intercalate_splitOn] at hextents
  · rintro (_ | ⟨hne, hparts⟩)
    · rfl
    · obtain ⟨hsplit, hsome⟩ := splitAll_intercalate hne hparts
      rw [if_neg hsome, hsplit]
      exact readExtents_eq_ok_iff.mpr hparts

theorem read_type_iff {text : String} {chars : List Char} {dims : List Nat} {dtype : DType} :
    (∃ part, readType chars = .ok (part, dtype) ∧ readDims text part = .ok dims) ↔
      TypeText chars dims dtype := by
  simp only [readDims_eq_ok_iff]
  unfold readType
  constructor
  · rintro ⟨part, hread, hextents⟩
    split at hread
    · obtain ⟨rfl, rfl⟩ := Prod.mk.inj (Except.ok.inj hread)
      exact .unlabelled hextents
    · next before label hcut =>
        obtain ⟨-, rfl⟩ := cutAt?_eq_some_iff.mp hcut
        split at hread
        · next found hlabel =>
            obtain ⟨rfl, rfl⟩ := Prod.mk.inj (Except.ok.inj hread)
            exact .labelled hextents (DType.parse?_eq_some_iff.mp hlabel)
        · cases hread
  · intro htype
    cases htype with
    | unlabelled hextents =>
        rw [cutAt?_eq_none_iff.mpr hextents.colon_not_mem]
        exact ⟨chars, rfl, hextents⟩
    | @labelled part label _ _ hextents hlabel =>
        rw [cutAt?_eq_some_iff.mpr ⟨hextents.colon_not_mem, rfl⟩]
        dsimp only
        rw [DType.parse?_eq_some_iff.mpr hlabel]
        exact ⟨part, rfl, hextents⟩

theorem ofText_eq_ok_iff {text : String} {argument : InputArgument} :
    ofText text = .ok argument ↔ Spells text argument := by
  unfold ofText
  constructor
  · intro hread
    split at hread
    · cases hread
    · cases hread
    · next name rest hname hcut =>
        obtain ⟨hfree, htext⟩ := cutAt?_eq_some_iff.mp hcut
        obtain ⟨⟨part, dtype⟩, htype, hread⟩ := bind_eq_ok_iff.mp hread
        obtain ⟨dims, hdims, hargument⟩ := bind_eq_ok_iff.mp hread
        obtain rfl := Except.ok.inj hargument
        refine ⟨?_, ?_, rest, ?_, read_type_iff.mp ⟨part, htype, hdims⟩⟩
        · simpa using hname
        · simpa using hfree
        · simpa using htext
  · rintro ⟨hnamed, hfree, rest, htext, htype⟩
    obtain ⟨part, hpart, hdims⟩ := (@read_type_iff text _ _ _).mpr htype
    have hname : argument.name.toList ≠ [] := by simpa using hnamed
    rw [cutAt?_eq_some_iff.mpr ⟨hfree, htext⟩]
    split
    · next hcut => cases hcut
    · next hcut => exact absurd (Prod.mk.inj (Option.some.inj hcut)).1 hname
    · next name rest' _ hcut =>
        obtain ⟨rfl, rfl⟩ := Prod.mk.inj (Option.some.inj hcut)
        rw [hpart, ok_bind]
        dsimp only
        rw [hdims, ok_bind, String.ofList_toList]
        rfl

/-! ## Printing -/

theorem Extents.print {dims : List Nat} (hdims : ∀ d ∈ dims, d < UInt64.size) :
    Extents ("x".intercalate (dims.map toString)).toList dims := by
  have hparts : List.Forall₂ Numeral (dims.map fun d => Nat.toDigits 10 d) dims := by
    rw [List.forall₂_map_left_iff, List.forall₂_same]
    exact fun d hd => .plain (.toDigits (hdims d hd))
  have htexts : (dims.map toString).map String.toList = dims.map fun d => Nat.toDigits 10 d := by
    simp
  rw [String.toList_intercalate, htexts]
  cases dims with
  | nil => exact .none
  | cons d dims => exact .some (List.cons_ne_nil _ _) hparts

theorem Spells.text {argument : InputArgument} (hnamed : argument.name ≠ "")
    (hfree : '=' ∉ argument.name.toList) (hdims : ∀ d ∈ argument.dims, d < UInt64.size) :
    Spells argument.text argument := by
  have hlabel : (String.ofList argument.dtype.label.toList).toLower ∈ argument.dtype.spellings := by
    rw [String.ofList_toList]
    exact DType.parse?_eq_some_iff.mp argument.dtype.parse?_label
  refine ⟨hnamed, hfree, _, ?_, .labelled (Extents.print hdims) hlabel⟩
  simp [InputArgument.text]

/-- A text is read as an input argument exactly when the grammar makes it a text of that
argument.  What is printed for an argument with a name that the grammar allows is read as that
argument. -/
theorem ofText_reads_grammar :
    (∀ text argument, ofText text = .ok argument ↔ Spells text argument) ∧
      ∀ argument : InputArgument, argument.name ≠ "" → '=' ∉ argument.name.toList →
        (∀ d ∈ argument.dims, d < UInt64.size) → ofText argument.text = .ok argument :=
  ⟨fun _ _ => ofText_eq_ok_iff, fun _ hnamed hfree hdims =>
    ofText_eq_ok_iff.mpr (.text hnamed hfree hdims)⟩

/-- A name may hold a colon and a cross, a numeral a sign and zeros in front, and the letters of
an element type are of either case. -/
theorem ofText_reads_mixed :
    ofText "a:x=+2x007:InT64" = .ok ⟨"a:x", [2, 7], .i64⟩ ∧
      ofText (text ⟨"data", [1, 3, 8, 8], .f32⟩) = .ok ⟨"data", [1, 3, 8, 8], .f32⟩ := by
  have hfirst : Numeral ['+', '2'] 2 := .plus ⟨by decide, List.all_eq_true.mp rfl, rfl, by decide⟩
  have hsecond : Numeral ['0', '0', '7'] 7 :=
    .plain ⟨by decide, List.all_eq_true.mp rfl, rfl, by decide⟩
  have hdims : Extents ['+', '2', 'x', '0', '0', '7'] [2, 7] :=
    @Extents.some [['+', '2'], ['0', '0', '7']] [2, 7] (by decide)
      (.cons hfirst (.cons hsecond .nil))
  have hlabel : (String.ofList ['I', 'n', 'T', '6', '4']).toLower ∈ DType.i64.spellings := by
    decide +kernel
  constructor
  · exact (ofText_reads_grammar.1 _ _).mpr
      ⟨by decide, by decide, _, by decide +kernel, .labelled hdims hlabel⟩
  · exact ofText_reads_grammar.2 _ (by decide) (by decide) (by decide)

end InputArgument
end NetImport
