import NetImport.Net.JsonForm
import NetImport.Proofs.Numeric.Shortest

/-!
# Numerals of 32-bit numbers

Wherever the point is set among the digits of a number, the numeral follows the grammar and has
a fraction or an exponent, so a finite number never reads as a whole one.
-/

namespace NetImport

/-- Neither an infinity nor no number. -/
def Binary.Datum.IsFinite : Binary.Datum → Prop
  | .finite .. => True
  | _ => False

instance : DecidablePred Binary.Datum.IsFinite
  | .finite .. => .isTrue trivial
  | .infinite _ => .isFalse id
  | .nan => .isFalse id

def RawSingle.IsFinite (x : RawSingle) : Prop := x.datum.IsFinite

instance (x : RawSingle) : Decidable x.IsFinite := inferInstanceAs (Decidable x.datum.IsFinite)

namespace NetJson

/-- The four ways to set the point among the digits of a number. -/
theorem realNumeral_cases (negative : Bool) (numeral : Decimal.Numeral) :
    realNumeral negative numeral = ⟨negative, digitsOf numeral.digits ++
        List.replicate numeral.exponent.toNat 0, some [0], none⟩ ∨
      (∃ before after, digitsOf numeral.digits = before ++ after ∧ before ≠ [] ∧ after ≠ [] ∧
        realNumeral negative numeral = ⟨negative, before, some after, none⟩) ∨
      (∃ places, realNumeral negative numeral =
        ⟨negative, [0], some (List.replicate places 0 ++ digitsOf numeral.digits), none⟩) ∨
      ∃ first others, ∃ power : Int, digitsOf numeral.digits = first :: others ∧
        realNumeral negative numeral = ⟨negative, [first],
          if others = [] then none else some others,
          some (decide (power < 0), digitsOf power.natAbs)⟩ := by
  unfold realNumeral
  extract_lets digits point exponent
  split
  next => exact .inl rfl
  next hfraction =>
    split
    next hpoint =>
      have hbefore : 0 < (digits.take point.toNat).length := by
        rw [List.length_take]
        have hdigits := List.length_pos_of_ne_nil (digitsOf_ne_nil numeral.digits)
        exact Nat.lt_min.mpr ⟨by omega, hdigits⟩
      have hafter : 0 < (digits.drop point.toNat).length := by
        rw [List.length_drop]
        omega
      exact .inr (.inl ⟨_, _, (List.take_append_drop _ _).symm, List.ne_nil_of_length_pos hbefore,
        List.ne_nil_of_length_pos hafter, rfl⟩)
    next =>
      split
      next => exact .inr (.inr (.inl ⟨_, rfl⟩))
      next =>
        obtain ⟨first, others, hdigits⟩ :=
          List.exists_cons_of_ne_nil (digitsOf_ne_nil numeral.digits)
        have hpart : digits = first :: others := hdigits
        refine .inr (.inr (.inr ⟨first, others, point - 1, hdigits, ?_⟩))
        rw [hpart]
        cases others <;> rfl

section

variable {negative : Bool} {digits before after others : List Nat} {first places : Nat}

theorem digits_zero : JsonNumeral.Digits [0] := ⟨nofun, by decide⟩

theorem lt_of_mem_zeros {digit : Nat} (hdigit : digit ∈ List.replicate places 0) : digit < 10 := by
  rw [List.eq_of_mem_replicate hdigit]
  decide

theorem wellFormed_padded (hdigits : JsonNumeral.Digits digits)
    (hleading : digits.head? = some 0 → digits = [0] ∧ places = 0) :
    JsonNumeral.WellFormed ⟨negative, digits ++ List.replicate places 0, some [0], none⟩ where
  whole := by
    apply And.intro (List.append_ne_nil_of_left_ne_nil hdigits.1 _)
    intro digit hdigit
    exact (List.mem_append.mp hdigit).elim (hdigits.2 digit) lt_of_mem_zeros
  leading hhead := by
    dsimp only at hhead ⊢
    rw [List.head?_append_of_ne_nil _ hdigits.1] at hhead
    obtain ⟨hzero, hplaces⟩ := hleading hhead
    rw [hzero, hplaces]
    rfl
  fraction := by
    rintro _ ⟨⟩
    exact digits_zero
  exponent := nofun

theorem wellFormed_split (hdigits : JsonNumeral.Digits (before ++ after)) (hbefore : before ≠ [])
    (hafter : after ≠ []) (hleading : before.head? ≠ some 0) :
    JsonNumeral.WellFormed ⟨negative, before, some after, none⟩ where
  whole := ⟨hbefore, fun digit hdigit => hdigits.2 digit (List.mem_append_left _ hdigit)⟩
  leading hhead := absurd hhead hleading
  fraction := by
    rintro _ ⟨⟩
    exact ⟨hafter, fun digit hdigit => hdigits.2 digit (List.mem_append_right _ hdigit)⟩
  exponent := nofun

theorem wellFormed_small (hdigits : JsonNumeral.Digits digits) :
    JsonNumeral.WellFormed ⟨negative, [0], some (List.replicate places 0 ++ digits), none⟩ where
  whole := digits_zero
  leading _ := rfl
  fraction := by
    rintro _ ⟨⟩
    apply And.intro (List.append_ne_nil_of_right_ne_nil _ hdigits.1)
    intro digit hdigit
    exact (List.mem_append.mp hdigit).elim lt_of_mem_zeros (hdigits.2 digit)
  exponent := nofun

theorem wellFormed_scientific (hdigits : JsonNumeral.Digits (first :: others)) (power : Int) :
    JsonNumeral.WellFormed ⟨negative, [first], if others = [] then none else some others,
      some (decide (power < 0), digitsOf power.natAbs)⟩ where
  whole := ⟨nofun, by simpa using hdigits.2 first (List.mem_cons_self ..)⟩
  leading hhead := by
    cases Option.some.inj hhead
    rfl
  fraction := by
    intro digits hfraction
    dsimp only at hfraction
    split at hfraction
    next => cases hfraction
    next hothers =>
      cases hfraction
      exact ⟨hothers, fun digit hdigit => hdigits.2 digit (List.mem_cons_of_mem first hdigit)⟩
  exponent := by
    rintro _ ⟨⟩
    exact JsonNumeral.digits_digitsOf power.natAbs

theorem wellFormed_realNumeral {numeral : Decimal.Numeral}
    (hnumeral : numeral = ⟨0, 0⟩ ∨ numeral.digits ≠ 0) :
    (realNumeral negative numeral).WellFormed := by
  have hall := JsonNumeral.digits_digitsOf numeral.digits
  rcases realNumeral_cases negative numeral with heq |
    ⟨before, after, hdigits, hbefore, hafter, heq⟩ | ⟨places, heq⟩ |
    ⟨first, others, power, hdigits, heq⟩
  · rw [heq]
    apply wellFormed_padded hall
    intro hhead
    have hzero := hnumeral.resolve_right (not_not_intro (eq_zero_of_head?_digitsOf hhead))
    rw [hzero]
    exact ⟨rfl, rfl⟩
  · rw [hdigits] at hall
    rw [heq]
    apply wellFormed_split hall hbefore hafter
    intro hhead
    -- Zero has one digit, which cannot stand on both sides of the point.
    have hzero : numeral.digits = 0 := by
      apply eq_zero_of_head?_digitsOf
      rw [hdigits, List.head?_append_of_ne_nil _ hbefore, hhead]
    rw [hzero, digitsOf_of_lt (by decide)] at hdigits
    obtain ⟨other, others, rfl⟩ := List.exists_cons_of_ne_nil hbefore
    exact hafter (List.append_eq_nil_iff.mp (List.cons.inj hdigits).2.symm).2
  · rw [heq]
    exact wellFormed_small hall
  · rw [hdigits] at hall
    rw [heq]
    exact wellFormed_scientific hall power

end

theorem realNumeral_not_whole (negative : Bool) (numeral : Decimal.Numeral) :
    (realNumeral negative numeral).fraction ≠ none ∨
      (realNumeral negative numeral).exponent ≠ none := by
  rcases realNumeral_cases negative numeral with heq | ⟨_, _, _, _, _, heq⟩ | ⟨_, heq⟩ |
    ⟨_, _, _, _, heq⟩
  · exact .inl (by rw [heq]; nofun)
  · exact .inl (by rw [heq]; nofun)
  · exact .inl (by rw [heq]; nofun)
  · exact .inr (by rw [heq]; nofun)

/-- A finite number has a numeral of its own, which has a fraction or an exponent. -/
theorem exists_ofSingle_eq {x : RawSingle} (hx : x.IsFinite) :
    ∃ numeral, ofSingle x = .number numeral ∧ numeral.WellFormed ∧
      (numeral.fraction ≠ none ∨ numeral.exponent ≠ none) := by
  unfold RawSingle.IsFinite at hx
  unfold ofSingle
  cases hdatum : x.datum with
  | finite negative significand exponent =>
      cases significand with
      | zero =>
          exact ⟨_, rfl, wellFormed_padded digits_zero fun _ => ⟨rfl, rfl⟩, .inl nofun⟩
      | succ significand =>
          have hshortest :=
            Decimal.shortest_cases Binary.single significand.succ_pos exponent
          exact ⟨_, rfl, wellFormed_realNumeral hshortest, realNumeral_not_whole negative _⟩
  | infinite negative =>
      rw [hdatum] at hx
      exact hx.elim
  | nan =>
      rw [hdatum] at hx
      exact hx.elim

theorem ofSingle_eq_null {x : RawSingle} (hx : ¬ x.IsFinite) : ofSingle x = .null := by
  unfold RawSingle.IsFinite at hx
  unfold ofSingle
  cases hdatum : x.datum with
  | finite negative significand exponent =>
      rw [hdatum] at hx
      exact absurd trivial hx
  | infinite negative => rfl
  | nan => rfl

end NetJson
end NetImport
