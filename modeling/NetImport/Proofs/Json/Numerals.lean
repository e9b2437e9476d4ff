import NetImport.Json.Parser
import NetImport.Json.Printer
import Mathlib.Data.List.Basic

/-!
# Numerals of documents

A numeral that follows the grammar is read back digit by digit, as long as the byte after it
does not continue it.  A whole number follows the grammar and keeps its value.  A numeral with
a fraction or an exponent never stands for a whole number.
-/

namespace NetImport

/-! ## Decimal digits -/

/-- The digits of a number, the greatest place first. -/
def digitsOf (n : Nat) : List Nat := (Nat.toDigits 10 n).map fun c => c.toNat - '0'.toNat

theorem digitsOf_of_lt {n : Nat} (hn : n < 10) : digitsOf n = [n] := by
  rw [digitsOf, Nat.toDigits_of_lt_base hn, List.map_singleton]
  exact congrArg (fun digit => [digit]) (Nat.toNat_digitChar_sub_48_of_lt_ten hn)

theorem digitsOf_of_le {n : Nat} (hn : 10 ≤ n) :
    digitsOf n = digitsOf (n / 10) ++ [n % 10] := by
  have hlast : (Nat.digitChar (n % 10)).toNat - '0'.toNat = n % 10 :=
    Nat.toNat_digitChar_sub_48_of_lt_ten (Nat.mod_lt n (by decide))
  rw [digitsOf, Nat.toDigits_of_base_le (by decide) hn, List.map_append, List.map_singleton, hlast]
  rfl

theorem digitsOf_ne_nil (n : Nat) : digitsOf n ≠ [] := by
  rw [digitsOf, ne_eq, List.map_eq_nil_iff]
  exact Nat.toDigits_ne_nil

theorem lt_of_mem_digitsOf {n digit : Nat} (hdigit : digit ∈ digitsOf n) : digit < 10 := by
  induction n using Nat.strongRecOn with
  | ind n ih =>
      by_cases hn : n < 10
      · rw [digitsOf_of_lt hn, List.mem_singleton] at hdigit
        omega
      · rw [digitsOf_of_le (Nat.le_of_not_lt hn)] at hdigit
        rcases List.mem_append.mp hdigit with hfirst | hlast
        · exact ih (n / 10) (by omega) hfirst
        · rw [List.mem_singleton.mp hlast]
          exact Nat.mod_lt n (by decide)

/-- Only zero begins with a zero. -/
theorem eq_zero_of_head?_digitsOf {n : Nat} (hhead : (digitsOf n).head? = some 0) : n = 0 := by
  induction n using Nat.strongRecOn with
  | ind n ih =>
      by_cases hn : n < 10
      · rw [digitsOf_of_lt hn] at hhead
        exact Option.some.inj hhead
      · rw [digitsOf_of_le (Nat.le_of_not_lt hn),
          List.head?_append_of_ne_nil _ (digitsOf_ne_nil _)] at hhead
        have hzero := ih (n / 10) (by omega) hhead
        omega

theorem foldl_digitsOf (n : Nat) :
    (digitsOf n).foldl (fun value digit => 10 * value + digit) 0 = n := by
  induction n using Nat.strongRecOn with
  | ind n ih =>
      by_cases hn : n < 10
      · rw [digitsOf_of_lt hn]
        simp
      · rw [digitsOf_of_le (Nat.le_of_not_lt hn), List.foldl_append, ih (n / 10) (by omega)]
        simp only [List.foldl_cons, List.foldl_nil]
        omega

namespace JsonNumeral

theorem le_foldl_digits (significand : Nat) (digits : List Nat) :
    significand ≤ digits.foldl (fun value digit => 10 * value + digit) significand := by
  induction digits generalizing significand with
  | nil => exact Nat.le_refl significand
  | cons digit digits ih => exact Nat.le_trans (by omega) (ih (10 * significand + digit))

/-- Digits are dropped only when the number has more than 64 bits. -/
theorem appendDigits_eq {significand : Nat} {digits : List Nat}
    (hbits : digits.foldl (fun value digit => 10 * value + digit) significand < UInt64.size) :
    appendDigits significand digits =
      (digits.foldl (fun value digit => 10 * value + digit) significand, digits.length) := by
  induction digits generalizing significand with
  | nil => rfl
  | cons digit digits ih =>
      rw [List.foldl_cons] at hbits
      have hfirst := Nat.lt_of_le_of_lt (le_foldl_digits (10 * significand + digit) digits) hbits
      rw [appendDigits, if_pos hfirst, ih hbits]
      rfl

theorem reading?_ofInt {i : Int} (hi : i ∈ IntRange.signed64) :
    (ofInt i).reading? = some (.integer i) := by
  obtain ⟨hlow, hhigh⟩ := IntRange.mem_iff.mp hi
  simp only [IntRange.signed64] at hlow hhigh
  have hbits : (digitsOf i.natAbs).foldl (fun value digit => 10 * value + digit) 0 <
      UInt64.size := by
    rw [foldl_digitsOf]
    exact Nat.lt_of_le_of_lt (show i.natAbs ≤ 9223372036854775808 by omega) (by decide)
  have happend := appendDigits_eq hbits
  rw [foldl_digitsOf] at happend
  have hwhole : (ofInt i).whole = digitsOf i.natAbs := rfl
  rw [reading?, hwhole, happend]
  by_cases hnegative : i < 0
  · have hnumber : -(i.natAbs : Int) = i := by omega
    have hrange : i.natAbs ≠ 0 ∧ i.natAbs ≤ 9223372036854775808 := by omega
    generalize i.natAbs = n at hnumber hrange ⊢
    simp [ofInt, hnegative, hrange, hnumber]
  · have hnumber : (i.natAbs : Int) = i := by omega
    generalize i.natAbs = n at hnumber ⊢
    simp [ofInt, hnegative, hnumber]

/-- A numeral with a fraction or an exponent is no whole number. -/
theorem reading?_ne_integer {numeral : JsonNumeral}
    (hreal : numeral.fraction ≠ none ∨ numeral.exponent ≠ none) (i : Int) :
    numeral.reading? ≠ some (.integer i) := by
  obtain ⟨negative, whole, fraction, exponent⟩ := numeral
  unfold reading?
  dsimp only
  split
  · simp at hreal
  · intro hreading
    obtain ⟨datum, -, hdatum⟩ := Option.bind_eq_some_iff.mp hreading
    cases hdatum

/-! ## The grammar -/

/-- Some digits and nothing else. -/
def Digits (digits : List Nat) : Prop := digits ≠ [] ∧ ∀ digit ∈ digits, digit < 10

theorem digits_digitsOf (n : Nat) : Digits (digitsOf n) :=
  ⟨digitsOf_ne_nil n, fun _ => lt_of_mem_digitsOf⟩

/-- A numeral of the grammar, in which no whole number but zero begins with a zero. -/
structure WellFormed (numeral : JsonNumeral) : Prop where
  whole : Digits numeral.whole
  leading : numeral.whole.head? = some 0 → numeral.whole = [0]
  fraction : ∀ digits ∈ numeral.fraction, Digits digits
  exponent : ∀ signed ∈ numeral.exponent, Digits signed.2

theorem wellFormed_ofInt (i : Int) : (ofInt i).WellFormed where
  whole := digits_digitsOf i.natAbs
  leading hhead := by
    have hzero := eq_zero_of_head?_digitsOf hhead
    change digitsOf i.natAbs = [0]
    rw [hzero]
    exact digitsOf_of_lt (by decide)
  fraction := by simp [ofInt]
  exponent := by simp [ofInt]

end JsonNumeral

namespace Json

/-- Bytes that do not continue a run of digits. -/
def EndsDigits (rest : List UInt8) : Prop := ∀ byte ∈ rest.head?, isDigit byte = false

/-- Bytes that do not continue a numeral. -/
structure EndsNumeral (rest : List UInt8) : Prop where
  digits : EndsDigits rest
  point : rest.head? ≠ some 0x2E
  small : rest.head? ≠ some 0x65
  large : rest.head? ≠ some 0x45

theorem endsNumeral_nil : EndsNumeral [] := ⟨nofun, nofun, nofun, nofun⟩

theorem digitByte : ∀ digit < 10, isDigit (0x30 + digit).toUInt8 = true ∧
    (0x30 + digit).toUInt8.toNat - 0x30 = digit := by
  decide

variable {digits : List Nat} {rest : List UInt8}

theorem takeDigits_digitBytes (hdigits : ∀ digit ∈ digits, digit < 10) (hrest : EndsDigits rest) :
    takeDigits (digitBytes digits ++ rest) = (digits, rest) := by
  have hbytes : ∀ byte ∈ digitBytes digits, isDigit byte = true := by
    rw [digitBytes, List.forall_mem_map]
    exact fun digit hdigit => (digitByte digit (hdigits digit hdigit)).1
  have hvalues : (digitBytes digits).map (fun byte => byte.toNat - 0x30) = digits := by
    rw [digitBytes, List.map_map]
    exact (List.map_congr_left fun digit hdigit =>
      (digitByte digit (hdigits digit hdigit)).2).trans (List.map_id digits)
  have hstop : rest.takeWhile isDigit = [] ∧ rest.dropWhile isDigit = rest := by
    cases rest with
    | nil => exact ⟨rfl, rfl⟩
    | cons byte rest =>
        have hbyte := hrest byte rfl
        simp [hbyte]
  rw [takeDigits, List.takeWhile_append_of_pos hbytes, List.dropWhile_append_of_pos hbytes,
    hstop.1, hstop.2, List.append_nil, hvalues]

theorem readWhole?_digitBytes (hdigits : JsonNumeral.Digits digits)
    (hleading : digits.head? = some 0 → digits = [0]) (hrest : EndsDigits rest) :
    readWhole? (digitBytes digits ++ rest) = some (digits, rest) := by
  rw [readWhole?, takeDigits_digitBytes hdigits.2 hrest]
  rcases digits with _ | ⟨first, _ | ⟨second, others⟩⟩
  · exact absurd rfl hdigits.1
  · cases first <;> rfl
  · have hfirst : first ≠ 0 := by
      rintro rfl
      cases hleading rfl
    split
    · next heq => cases heq
    · next heq =>
        cases heq
        exact absurd rfl hfirst
    · rfl

/-- The part of a numeral from the point on. -/
def fractionBytes : Option (List Nat) → List UInt8
  | none => []
  | some digits => 0x2E :: digitBytes digits

/-- The part of a numeral from the letter on. -/
def exponentBytes : Option (Bool × List Nat) → List UInt8
  | none => []
  | some (negative, digits) =>
      0x65 :: (if negative then 0x2D else 0x2B) :: digitBytes digits

theorem numeralBytes_eq (numeral : JsonNumeral) :
    numeralBytes numeral = (if numeral.negative then [0x2D] else []) ++
      (digitBytes numeral.whole ++
        (fractionBytes numeral.fraction ++ exponentBytes numeral.exponent)) := by
  rw [numeralBytes, List.append_assoc, List.append_assoc]
  rfl

theorem readExponent?_exponentBytes {exponent : Option (Bool × List Nat)}
    (hexponent : ∀ signed ∈ exponent, JsonNumeral.Digits signed.2) (hrest : EndsNumeral rest) :
    readExponent? (exponentBytes exponent ++ rest) = some (exponent, rest) := by
  cases exponent with
  | none =>
      cases rest with
      | nil => rfl
      | cons byte rest =>
          have hsmall : byte ≠ 0x65 := fun heq => hrest.small (congrArg some heq)
          have hlarge : byte ≠ 0x45 := fun heq => hrest.large (congrArg some heq)
          simp [exponentBytes, readExponent?, hsmall, hlarge]
  | some signed =>
      obtain ⟨negative, digits⟩ := signed
      obtain ⟨hnonempty, hdigits⟩ := hexponent _ rfl
      obtain ⟨first, others, rfl⟩ := List.exists_cons_of_ne_nil hnonempty
      have htake := takeDigits_digitBytes hdigits hrest.digits
      cases negative <;> simp [exponentBytes, readExponent?, htake]

theorem readFraction?_fractionBytes {fraction : Option (List Nat)}
    (hfraction : ∀ digits ∈ fraction, JsonNumeral.Digits digits) (hrest : EndsDigits rest)
    (hpoint : rest.head? ≠ some 0x2E) :
    readFraction? (fractionBytes fraction ++ rest) = some (fraction, rest) := by
  cases fraction with
  | none =>
      rw [fractionBytes, List.nil_append, readFraction?]
      rintro rest' rfl
      exact hpoint rfl
  | some digits =>
      obtain ⟨hnonempty, hdigits⟩ := hfraction _ rfl
      obtain ⟨first, others, rfl⟩ := List.exists_cons_of_ne_nil hnonempty
      have htake := takeDigits_digitBytes hdigits hrest
      simp [fractionBytes, readFraction?, htake]

theorem EndsNumeral.exponentBytes (hrest : EndsNumeral rest) (exponent : Option (Bool × List Nat)) :
    EndsDigits (exponentBytes exponent ++ rest) ∧
      (exponentBytes exponent ++ rest).head? ≠ some 0x2E := by
  cases exponent with
  | none => exact ⟨hrest.digits, hrest.point⟩
  | some signed => simp [Json.exponentBytes, EndsDigits, isDigit]

/-- What follows the sign of a numeral. -/
def readUnsigned? (negative : Bool) (bytes : List UInt8) :
    Option (JsonNumeral × List UInt8) := do
  let (whole, rest) ← readWhole? bytes
  let (fraction, rest) ← readFraction? rest
  let (exponent, rest) ← readExponent? rest
  return (⟨negative, whole, fraction, exponent⟩, rest)

theorem readUnsigned?_bytes {numeral : JsonNumeral} (hnumeral : numeral.WellFormed)
    (hrest : EndsNumeral rest) (negative : Bool) :
    readUnsigned? negative (digitBytes numeral.whole ++
        (fractionBytes numeral.fraction ++ (exponentBytes numeral.exponent ++ rest))) =
      some (⟨negative, numeral.whole, numeral.fraction, numeral.exponent⟩, rest) := by
  obtain ⟨hexponent, hpoint⟩ := hrest.exponentBytes numeral.exponent
  have hfraction : EndsDigits (fractionBytes numeral.fraction ++
      (exponentBytes numeral.exponent ++ rest)) := by
    cases numeral.fraction with
    | none => exact hexponent
    | some digits => simp [fractionBytes, EndsDigits, isDigit]
  have hwhole := readWhole?_digitBytes hnumeral.whole hnumeral.leading hfraction
  simp only [readUnsigned?, hwhole, readFraction?_fractionBytes hnumeral.fraction hexponent hpoint,
    readExponent?_exponentBytes hnumeral.exponent hrest, Option.bind_eq_bind, Option.bind_some]
  rfl

/-- A numeral of the grammar reads back. -/
theorem readNumeral?_numeralBytes {numeral : JsonNumeral} (hnumeral : numeral.WellFormed)
    (hrest : EndsNumeral rest) :
    readNumeral? (numeralBytes numeral ++ rest) = some (numeral, rest) := by
  have hunsigned := readUnsigned?_bytes hnumeral hrest
  rw [numeralBytes_eq]
  simp only [List.append_assoc]
  obtain ⟨negative, whole, fraction, exponent⟩ := numeral
  cases negative with
  | true => exact hunsigned true
  | false =>
      obtain ⟨first, others, rfl⟩ := List.exists_cons_of_ne_nil hnumeral.whole.1
      have hfirst := digitByte first (hnumeral.whole.2 first (List.mem_cons_self ..))
      have hsign : (0x30 + first).toUInt8 ≠ 0x2D := by
        intro heq
        rw [heq] at hfirst
        cases hfirst.1
      unfold readNumeral?
      split
      next heq =>
        split at heq
        · next hbytes => exact absurd (List.cons.inj hbytes).1 hsign
        · cases heq
          exact hunsigned false

end Json
end NetImport
