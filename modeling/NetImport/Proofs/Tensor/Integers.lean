import NetImport.Tensor.Basic

/-!
# Whole numbers as elements

An integer type has an element for every whole number of its range, and no other.
-/

namespace NetImport

namespace DType

variable {dtype : DType} {range : IntRange}

/-- Such an element reads back as the number it was made for. -/
theorem toInt?_of_ofInt? {i : Int} {x : dtype.Element} (hx : dtype.ofInt? i = some x) :
    dtype.toInt? x = some i := by
  cases dtype with
  | f32 => cases hx
  | bool => cases hx
  | i8 =>
      obtain ⟨⟨hlow, hhigh⟩, hvalue⟩ := Option.ite_none_right_eq_some.mp hx
      obtain rfl := Option.some.inj hvalue
      exact congrArg some (Int8.toInt_ofInt_of_le hlow (Int.lt_add_one_iff.mpr hhigh))
  | u8 =>
      obtain ⟨⟨hlow, hhigh⟩, hvalue⟩ := Option.ite_none_right_eq_some.mp hx
      obtain rfl := Option.some.inj hvalue
      simp only [IntRange.unsigned8] at hlow hhigh
      have hsmall : i.toNat < 256 := by omega
      rw [toInt?, UInt8.toNat_ofNat_of_lt' hsmall, Int.toNat_of_nonneg hlow]
  | i32 =>
      obtain ⟨⟨hlow, hhigh⟩, hvalue⟩ := Option.ite_none_right_eq_some.mp hx
      obtain rfl := Option.some.inj hvalue
      exact congrArg some (Int32.toInt_ofInt_of_le hlow (Int.lt_add_one_iff.mpr hhigh))
  | i64 =>
      obtain ⟨⟨hlow, hhigh⟩, hvalue⟩ := Option.ite_none_right_eq_some.mp hx
      obtain rfl := Option.some.inj hvalue
      exact congrArg some (Int64.toInt_ofInt_of_le hlow (Int.lt_add_one_iff.mpr hhigh))

/-- The value of an element lies in the range of its type. -/
theorem mem_of_toInt? (hrange : dtype.range? = some range) {i : Int} {x : dtype.Element}
    (hx : dtype.toInt? x = some i) : i ∈ range := by
  rw [IntRange.mem_iff]
  cases dtype with
  | f32 => cases hx
  | bool => cases hx
  | i8 =>
      cases hrange
      obtain rfl := Option.some.inj hx
      exact ⟨Int8.le_toInt x, Int8.toInt_le x⟩
  | u8 =>
      cases hrange
      obtain rfl := Option.some.inj hx
      exact ⟨Int.natCast_nonneg _, Int.lt_add_one_iff.mp (Int.ofNat_lt.mpr x.toNat_lt)⟩
  | i32 =>
      cases hrange
      obtain rfl := Option.some.inj hx
      exact ⟨Int32.le_toInt x, Int32.toInt_le x⟩
  | i64 =>
      cases hrange
      obtain rfl := Option.some.inj hx
      exact ⟨Int64.le_toInt x, Int64.toInt_le x⟩

theorem exists_ofInt?_iff (hrange : dtype.range? = some range) {i : Int} :
    (∃ x, dtype.ofInt? i = some x) ↔ i ∈ range := by
  cases dtype <;> cases hrange <;> simp [ofInt?]

end DType
end NetImport
