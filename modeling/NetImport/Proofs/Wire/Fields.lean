import NetImport.Wire.Field

/-!
# Reading undoes writing, field by field

A field is written as a key and a payload.  Reading it back gives the field and whatever
follows, so fields that were written one after the other are read in their order.  The
length of a delimited payload must be a number of 64 bits, as that of any byte string in
memory is.
-/

namespace NetImport
namespace Wire

theorem take?_append (bytes rest : List UInt8) :
    take? bytes.length (bytes ++ rest) = some (bytes, rest) := by
  induction bytes with
  | nil => rfl
  | cons byte bytes ih => simp [take?, ih]

theorem Form.ofCode?_code (form : Form) : Form.ofCode? form.code = some form := by
  cases form <;> rfl

theorem Form.code_lt (form : Form) : form.code < 8 := by
  cases form <;> decide

/-- Field numbers that a key has room for. -/
def ValidNumber (number : Nat) : Prop := 0 < number ∧ 8 * number + 7 < UInt32.size

instance (number : Nat) : Decidable (ValidNumber number) :=
  inferInstanceAs (Decidable (_ ∧ _))

theorem readKey?_encodeKey {number : Nat} (hnumber : ValidNumber number) (form : Form)
    (rest : List UInt8) :
    readKey? (encodeKey number form ++ rest) = some (number, form, rest) := by
  have hcode := form.code_lt
  have hkey : 8 * number + form.code < UInt32.size := by
    have hroom := hnumber.2
    omega
  have hread := Varint.read?_encode (Nat.lt_trans hkey (by decide : UInt32.size < UInt64.size)) rest
  have hform : (8 * number + form.code) % 8 = form.code := by omega
  have hquotient : (8 * number + form.code) / 8 = number := by omega
  have hpositive := hnumber.1
  rw [readKey?, encodeKey, hread]
  simp [hform, hquotient, Form.ofCode?_code, hkey]
  omega

/-- Payloads that are written: numbers of 64 bits, byte strings and patterns of 32 bits. -/
def Payload.WellFormed : Payload → Prop
  | .varint value => value < UInt64.size
  | .delimited _ => True
  | .fixed32 bytes => bytes.length = 4
  | .fixed64 _ => False
  | .group => False

namespace Field

/-- The bytes of a field.  Groups and payloads of 64 bits are never written. -/
def encode (field : Field) : List UInt8 :=
  match field.payload with
  | .varint value => encodeVarint field.number value
  | .delimited bytes => encodeDelimited field.number bytes
  | .fixed32 bytes => encodeFixed32 field.number bytes
  | .fixed64 _ => []
  | .group => []

def WellFormed (field : Field) : Prop :=
  ValidNumber field.number ∧ field.payload.WellFormed

theorem length_encode_delimited (number : Nat) (bytes : List UInt8) :
    bytes.length ≤ (encode ⟨number, .delimited bytes⟩).length := by
  simp only [encode, encodeDelimited, List.length_append]
  omega

/-- A delimited payload is part of what is written. -/
theorem length_le_of_mem {fields : List Field} {number : Nat} {bytes : List UInt8}
    (hmem : ⟨number, .delimited bytes⟩ ∈ fields) :
    bytes.length ≤ (fields.flatMap encode).length := by
  obtain ⟨before, after, rfl⟩ := List.append_of_mem hmem
  have hfield := length_encode_delimited number bytes
  rw [List.flatMap_append, List.flatMap_cons, List.length_append, List.length_append]
  omega

end Field

theorem readField?_encode {depth : Nat} {field : Field} (hfield : field.WellFormed)
    (hlength : field.encode.length < UInt64.size) (rest : List UInt8) :
    readField? depth (field.encode ++ rest) = some (field, rest) := by
  obtain ⟨number, payload⟩ := field
  obtain ⟨hnumber, hpayload⟩ := hfield
  cases payload with
  | varint value =>
      have hread := Varint.read?_encode hpayload rest
      simp [Field.encode, encodeVarint, readField?, readKey?_encodeKey hnumber, readPayload?,
        hread]
  | delimited bytes =>
      have hshorter := Field.length_encode_delimited number bytes
      have hread := Varint.read?_encode (Nat.lt_of_le_of_lt hshorter hlength) (bytes ++ rest)
      simp [Field.encode, encodeDelimited, readField?, readKey?_encodeKey hnumber, readPayload?,
        readDelimited?, hread, take?_append]
  | fixed32 bytes =>
      have htake := take?_append bytes rest
      rw [show bytes.length = 4 from hpayload] at htake
      simp [Field.encode, encodeFixed32, readField?, readKey?_encodeKey hnumber, readPayload?,
        htake]
  | fixed64 bytes => exact hpayload.elim
  | group => exact hpayload.elim

theorem readFields?_of_readField? {depth : Nat} {bytes rest : List UInt8} {field : Field}
    (hfield : readField? depth bytes = some (field, rest)) :
    readFields? depth bytes = (readFields? depth rest).map (field :: ·) := by
  cases bytes with
  | nil =>
      have hshorter := length_of_readField? hfield
      cases hshorter
  | cons byte tail =>
      rw [readFields?]
      split
      · next hnone =>
          rw [hfield] at hnone
          cases hnone
      · next found remaining hsome =>
          rw [hfield] at hsome
          cases hsome
          rfl

/-- Fields are read as they were written. -/
theorem readFields?_encode {depth : Nat} {fields : List Field}
    (hfields : ∀ field ∈ fields, field.WellFormed)
    (hlength : (fields.flatMap Field.encode).length < UInt64.size) :
    readFields? depth (fields.flatMap Field.encode) = some fields := by
  induction fields with
  | nil => rw [List.flatMap_nil, readFields?]
  | cons field fields ih =>
      rw [List.flatMap_cons] at hlength ⊢
      rw [List.length_append] at hlength
      obtain ⟨hfield, hrest⟩ := List.forall_mem_cons.mp hfields
      have hread : readField? depth (field.encode ++ fields.flatMap Field.encode) =
          some (field, fields.flatMap Field.encode) :=
        readField?_encode hfield (by omega) _
      rw [readFields?_of_readField? hread, ih hrest (by omega)]
      rfl

end Wire
end NetImport
