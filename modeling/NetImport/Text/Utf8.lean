/-!
# Text as bytes

Files and wire messages hold text as UTF-8.  Strict decoding refuses every
other byte sequence; tolerant decoding puts one replacement character in place
of each longest part that begins a character and does not complete it.
-/

namespace NetImport
namespace Utf8

def encode (text : String) : List UInt8 := text.toByteArray.data.toList

def decode? (bytes : List UInt8) : Option String := String.fromUTF8? ⟨bytes.toArray⟩

@[simp] theorem decode?_encode (text : String) : decode? (encode text) = some text := by
  have hbytes : (⟨(encode text).toArray⟩ : ByteArray) = text.toByteArray := by
    simp [encode]
  rw [decode?, hbytes, String.fromUTF8?, dif_pos text.isValidUTF8]
  rfl

/-- The character that stands for bytes that are no text. -/
def replacement : Char := '\uFFFD'

def isTail (byte : UInt8) : Bool := 0x80 ≤ byte && byte ≤ 0xBF

/-- The bytes that may come second after a leading byte of a longer character,
with the number of bytes that follow the second one. -/
def secondRange? (lead : UInt8) : Option (UInt8 × UInt8 × Nat) :=
  if 0xC2 ≤ lead && lead ≤ 0xDF then some (0x80, 0xBF, 0)
  else if lead == 0xE0 then some (0xA0, 0xBF, 1)
  else if lead == 0xED then some (0x80, 0x9F, 1)
  else if 0xE1 ≤ lead && lead ≤ 0xEF then some (0x80, 0xBF, 1)
  else if lead == 0xF0 then some (0x90, 0xBF, 2)
  else if 0xF1 ≤ lead && lead ≤ 0xF3 then some (0x80, 0xBF, 2)
  else if lead == 0xF4 then some (0x80, 0x8F, 2)
  else none

/-- Takes up to `count` tail bytes; the flag says whether all were there. -/
def takeTails : Nat → List UInt8 → List UInt8 × List UInt8 × Bool
  | 0, bytes => ([], bytes, true)
  | _ + 1, [] => ([], [], false)
  | count + 1, byte :: bytes =>
      if isTail byte then
        let (tails, rest, complete) := takeTails count bytes
        (byte :: tails, rest, complete)
      else ([], byte :: bytes, false)

def codePoint (lead : UInt8) (tails : List UInt8) : Nat :=
  let leadBits :=
    if lead < 0x80 then lead.toNat
    else if lead < 0xE0 then lead.toNat % 0x20
    else if lead < 0xF0 then lead.toNat % 0x10
    else lead.toNat % 0x08
  tails.foldl (fun value tail => 64 * value + tail.toNat % 64) leadBits

/-- Reads one character behind a leading byte, or the longest part of one. -/
def tolerantChar (lead : UInt8) (bytes : List UInt8) : Char × List UInt8 :=
  if lead < 0x80 then (Char.ofNat lead.toNat, bytes)
  else
    match secondRange? lead, bytes with
    | some (low, high, count), second :: rest =>
        if low ≤ second && second ≤ high then
          let (tails, rest, complete) := takeTails count rest
          if complete then (Char.ofNat (codePoint lead (second :: tails)), rest)
          else (replacement, rest)
        else (replacement, bytes)
    | _, _ => (replacement, bytes)

theorem length_takeTails (count : Nat) (bytes : List UInt8) :
    (takeTails count bytes).2.1.length ≤ bytes.length := by
  induction count generalizing bytes with
  | zero => simp [takeTails]
  | succ count ih =>
      cases bytes with
      | nil => simp [takeTails]
      | cons byte bytes =>
          unfold takeTails
          split
          · exact Nat.le_succ_of_le (ih bytes)
          · simp

theorem length_tolerantChar (lead : UInt8) (bytes : List UInt8) :
    (tolerantChar lead bytes).2.length ≤ bytes.length := by
  unfold tolerantChar
  split
  · simp
  · split
    · next low high count second rest _ =>
        have hrest := length_takeTails count rest
        split
        · dsimp only
          split <;> exact Nat.le_succ_of_le hrest
        · simp
    · simp

/-- Reads characters and replaces what is none. -/
def tolerantChars : List UInt8 → List Char
  | [] => []
  | lead :: bytes =>
      let next := tolerantChar lead bytes
      next.1 :: tolerantChars next.2
termination_by bytes => bytes.length
decreasing_by
  have hlength := length_tolerantChar lead bytes
  simp only [List.length_cons]
  omega

def decodeTolerantly (bytes : List UInt8) : String :=
  (decode? bytes).getD (String.ofList (tolerantChars bytes))

end Utf8
end NetImport
