import NetImport.Json.Parser
import NetImport.Json.Printer
import NetImport.Json.Text
import Mathlib.Data.List.Basic

/-!
# Strings of documents

An escaped string ends at the first quote after it, and its escapes stand for the bytes that
they were made from.  What is written is text as well, because a byte of a longer character is
never escaped.
-/

namespace NetImport

namespace Utf8

theorem encode_eq_flatMap (text : String) :
    encode text = text.toList.flatMap String.utf8EncodeChar := by
  rw [encode, ← String.utf8Encode_toList, List.utf8Encode, List.data_toByteArray]

/-- The bytes of a text. -/
def IsText (bytes : List UInt8) : Prop := ∃ text, encode text = bytes

theorem isText_flatMap (chars : List Char) : IsText (chars.flatMap String.utf8EncodeChar) := by
  refine ⟨String.ofList chars, ?_⟩
  rw [encode_eq_flatMap, String.toList_ofList]

theorem IsText.append {bytes bytes' : List UInt8} (hfirst : IsText bytes)
    (hsecond : IsText bytes') :
    IsText (bytes ++ bytes') := by
  obtain ⟨text, rfl⟩ := hfirst
  obtain ⟨text', rfl⟩ := hsecond
  rw [encode_eq_flatMap, encode_eq_flatMap, ← List.flatMap_append]
  exact isText_flatMap _

theorem isText_nil : IsText [] := isText_flatMap []

theorem utf8EncodeChar_ofNat :
    ∀ n < 0x80, String.utf8EncodeChar (Char.ofNat n) = [n.toUInt8] := by
  decide

theorem isText_singleton {byte : UInt8} (hbyte : byte < 0x80) : IsText [byte] := by
  have hchar := utf8EncodeChar_ofNat byte.toNat (UInt8.lt_iff_toNat_lt.mp hbyte)
  have htext := isText_flatMap [Char.ofNat byte.toNat]
  rwa [List.flatMap_singleton, hchar, Nat.toUInt8_eq, UInt8.ofNat_toNat] at htext

/-- A character is one byte of seven bits or has none of them. -/
theorem utf8EncodeChar_cases (c : Char) :
    (∃ byte < 0x80, String.utf8EncodeChar c = [byte]) ∨
      ∀ byte ∈ String.utf8EncodeChar c, 0x80 ≤ byte := by
  have hbyte {n : Nat} (hlow : 128 ≤ n) (hhigh : n < 256) : 0x80 ≤ UInt8.ofNat n := by
    rw [UInt8.le_iff_toNat_le, UInt8.toNat_ofNat_of_lt' hhigh]
    exact hlow
  have hscalar := c.val.toNat_lt
  unfold String.utf8EncodeChar
  extract_lets v
  by_cases hone : v ≤ 0x7f
  · left
    refine ⟨UInt8.ofNat v, ?_, by rw [if_pos hone]⟩
    rw [UInt8.lt_iff_toNat_lt, UInt8.toNat_ofNat_of_lt' (show v < 256 by omega)]
    exact Nat.lt_succ_of_le hone
  · right
    rw [if_neg hone]
    split
    · simp only [List.forall_mem_cons, List.not_mem_nil, false_imp_iff, implies_true, and_true]
      exact ⟨hbyte (by omega) (by omega), hbyte (by omega) (by omega)⟩
    · split
      · simp only [List.forall_mem_cons, List.not_mem_nil, false_imp_iff, implies_true, and_true]
        exact ⟨hbyte (by omega) (by omega), hbyte (by omega) (by omega),
          hbyte (by omega) (by omega)⟩
      · simp only [List.forall_mem_cons, List.not_mem_nil, false_imp_iff, implies_true, and_true]
        exact ⟨hbyte (by omega) (by omega), hbyte (by omega) (by omega),
          hbyte (by omega) (by omega), hbyte (by omega) (by omega)⟩

theorem isText_cons {byte : UInt8} {bytes : List UInt8} (hbyte : byte < 0x80)
    (hbytes : IsText bytes) : IsText (byte :: bytes) :=
  (isText_singleton hbyte).append hbytes

theorem isText_of_forall_lt {bytes : List UInt8} (hbytes : ∀ byte ∈ bytes, byte < 0x80) :
    IsText bytes := by
  induction bytes with
  | nil => exact isText_nil
  | cons byte bytes ih =>
      obtain ⟨hbyte, hothers⟩ := List.forall_mem_cons.mp hbytes
      exact isText_cons hbyte (ih hothers)

theorem decodeTolerantly_of_isText {bytes : List UInt8} (hbytes : IsText bytes) :
    encode (decodeTolerantly bytes) = bytes := by
  obtain ⟨text, rfl⟩ := hbytes
  rw [decodeTolerantly, decode?_encode, Option.getD_some]

end Utf8

namespace JsonText

theorem hexDigit?_hexDigitByte : ∀ n < 16, hexDigit? (hexDigitByte n) = some n := by
  decide

/-- Escapes are made of bytes of seven bits. -/
theorem forall_escapeByte_lt {byte : UInt8} (hbyte : byte < 0x80) :
    ∀ escaped ∈ escapeByte byte, escaped < 0x80 := by
  have hall : ∀ n < 0x80, ∀ escaped ∈ escapeByte n.toUInt8, escaped < 0x80 := by
    decide +kernel
  have hescaped := hall byte.toNat (UInt8.lt_iff_toNat_lt.mp hbyte)
  rwa [Nat.toUInt8_eq, UInt8.ofNat_toNat] at hescaped

theorem escapeByte_of_le {byte : UInt8} (hbyte : 0x80 ≤ byte) : escapeByte byte = [byte] := by
  have hall : ∀ n < 0x80, escapeByte (n + 0x80).toUInt8 = [(n + 0x80).toUInt8] := by decide
  have hlow : 128 ≤ byte.toNat := UInt8.le_iff_toNat_le.mp hbyte
  have hescaped := hall (byte.toNat - 128) (by have := byte.toNat_lt; omega)
  rwa [Nat.sub_add_cancel hlow, Nat.toUInt8_eq, UInt8.ofNat_toNat] at hescaped

/-- How a byte is escaped. -/
theorem escapeByte_cases (byte : UInt8) :
    (∃ letter, letter ≠ 0x75 ∧ escapeByte byte = [0x5C, letter] ∧
      shortEscape? letter = some byte) ∨
    (∃ c d, byte < 0x20 ∧ escapeByte byte = [0x5C, 0x75, 0x30, 0x30, c, d] ∧
      unit? 0x30 0x30 c d = some byte.toNat) ∨
    (0x20 ≤ byte ∧ byte ≠ 0x22 ∧ byte ≠ 0x5C ∧ escapeByte byte = [byte]) := by
  by_cases hshort : byte ∈ [0x22, 0x5C, 0x08, 0x09, 0x0A, 0x0C, 0x0D]
  · left
    have hall : ∀ byte ∈ ([0x22, 0x5C, 0x08, 0x09, 0x0A, 0x0C, 0x0D] : List UInt8),
        ∃ letter ∈ (escapeByte byte).tail, letter ≠ 0x75 ∧ escapeByte byte = [0x5C, letter] ∧
          shortEscape? letter = some byte := by decide +kernel
    obtain ⟨letter, -, hletter⟩ := hall byte hshort
    exact ⟨letter, hletter⟩
  · right
    simp only [List.mem_cons, List.not_mem_nil, or_false, not_or] at hshort
    by_cases hlow : byte < 0x20
    · left
      have hlow' : byte.toNat < 32 := UInt8.lt_iff_toNat_lt.mp hlow
      refine ⟨hexDigitByte (byte.toNat / 16), hexDigitByte (byte.toNat % 16), hlow,
        by simp [escapeByte, hshort, hlow], ?_⟩
      have hzero : hexDigit? 0x30 = some 0 := rfl
      rw [unit?, hzero, hexDigit?_hexDigitByte _ (by omega), hexDigit?_hexDigitByte _ (by omega)]
      simp only [Option.bind_eq_bind, Option.bind_some, Option.pure_def, Option.some.injEq]
      omega
    · right
      exact ⟨UInt8.not_lt.mp hlow, hshort.1, hshort.2.1, by simp [escapeByte, hshort, hlow]⟩

theorem readRaw?_escapeByte (byte : UInt8) (tail : List UInt8) :
    Json.readRaw? (escapeByte byte ++ tail) =
      (Json.readRaw? tail).map fun (raw, rest) => (escapeByte byte ++ raw, rest) := by
  rcases escapeByte_cases byte with ⟨letter, hletter, hescape, hshort⟩ |
    ⟨c, d, -, hescape, hunit⟩ | ⟨hlow, hquote, hslash, hescape⟩
  · rw [hescape, List.cons_append, List.singleton_append, Json.readRaw?, hshort]
    · cases Json.readRaw? tail <;> rfl
    · exact fun _ _ _ _ _ hletter' _ => hletter hletter'
  · rw [hescape]
    simp only [List.cons_append, List.nil_append]
    rw [Json.readRaw?, hunit]
    cases Json.readRaw? tail <;> rfl
  · rw [hescape, List.singleton_append, Json.readRaw?]
    · rw [if_neg (UInt8.not_lt.mpr hlow), if_neg (by simpa using hslash)]
      cases Json.readRaw? tail <;> rfl
    · exact hquote
    · exact fun _ _ _ _ _ hslash' _ => hslash hslash'
    · exact fun _ _ hslash' _ => hslash hslash'

/-- A string ends at the first quote that is not escaped. -/
theorem readRaw?_flatMap (bytes rest : List UInt8) :
    Json.readRaw? (bytes.flatMap escapeByte ++ 0x22 :: rest) =
      some (bytes.flatMap escapeByte, rest) := by
  induction bytes with
  | nil => rfl
  | cons byte bytes ih =>
      rw [List.flatMap_cons, List.append_assoc, readRaw?_escapeByte, ih, Option.map_some]

theorem unescape?_escapeByte (byte : UInt8) (tail : List UInt8) :
    unescape? (escapeByte byte ++ tail) = (unescape? tail).map (byte :: ·) := by
  rcases escapeByte_cases byte with ⟨letter, hletter, hescape, hshort⟩ |
    ⟨c, d, hlow, hescape, hunit⟩ | ⟨-, -, hslash, hescape⟩
  · rw [hescape, List.cons_append, List.singleton_append, unescape?, hshort]
    · cases unescape? tail <;> rfl
    · exact fun _ _ _ _ _ hletter' _ => hletter hletter'
  · have hlow' : byte.toNat < 32 := UInt8.lt_iff_toNat_lt.mp hlow
    have hchar : String.utf8EncodeChar (Char.ofNat byte.toNat) = [byte] := by
      rw [Utf8.utf8EncodeChar_ofNat _ (by omega), Nat.toUInt8_eq, UInt8.ofNat_toNat]
    rw [hescape]
    simp only [List.cons_append, List.nil_append]
    rw [unescape?, hunit, Option.bind_eq_bind, Option.bind_some,
      if_neg (by simp; omega), if_neg (by simp; omega), hchar]
    cases unescape? tail <;> rfl
  · rw [hescape, List.singleton_append, unescape?]
    · cases unescape? tail <;> rfl
    · exact fun _ _ _ _ _ hslash' _ => hslash hslash'
    · exact fun _ _ hslash' _ => hslash hslash'
    · exact fun hslash' _ => hslash hslash'

theorem unescape?_flatMap (bytes : List UInt8) :
    unescape? (bytes.flatMap escapeByte) = some bytes := by
  induction bytes with
  | nil => rfl
  | cons byte bytes ih => rw [List.flatMap_cons, unescape?_escapeByte, ih, Option.map_some]

@[simp] theorem decode?_encode (text : String) : decode? (encode text) = some text := by
  rw [decode?, encode, unescape?_flatMap, Option.bind_eq_bind, Option.bind_some,
    Utf8.decode?_encode]

theorem isText_encode (text : String) : Utf8.IsText (encode text) := by
  rw [encode, Utf8.encode_eq_flatMap]
  induction text.toList with
  | nil => exact Utf8.isText_nil
  | cons c chars ih =>
      rw [List.flatMap_cons, List.flatMap_append]
      apply Utf8.IsText.append _ ih
      rcases Utf8.utf8EncodeChar_cases c with ⟨byte, hbyte, hchar⟩ | hbytes
      · rw [hchar, List.flatMap_singleton]
        exact Utf8.isText_of_forall_lt (forall_escapeByte_lt hbyte)
      · have hsame : (String.utf8EncodeChar c).flatMap escapeByte = String.utf8EncodeChar c := by
          rw [List.flatMap_congr fun byte hbyte => escapeByte_of_le (hbytes byte hbyte),
            List.flatMap_singleton']
        rw [hsame, ← List.flatMap_singleton String.utf8EncodeChar c]
        exact Utf8.isText_flatMap [c]

end JsonText
end NetImport
