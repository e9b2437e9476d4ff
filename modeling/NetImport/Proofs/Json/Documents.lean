import NetImport.Proofs.Json.Numerals
import NetImport.Proofs.Json.Text

/-!
# Documents that read back

A value whose numerals follow the grammar and whose strings are escaped reads back from its
printed form, whatever the indentation.  Every value begins with a byte of its own that is no
blank, and it ends before a comma, a line break or a closing bracket, none of which continues
a numeral.
-/

namespace NetImport
namespace Json

/-- Values that are printed by the grammar. -/
inductive Writable : Json → Prop where
  | null : Writable .null
  | bool (value : Bool) : Writable (.bool value)
  | number {numeral : JsonNumeral} (hnumeral : numeral.WellFormed) : Writable (.number numeral)
  | string (text : String) : Writable (.string (JsonText.encode text))
  | array {items : List Json} (hitems : ∀ item ∈ items, Writable item) : Writable (.array items)
  | object {members : List (List UInt8 × Json)}
      (hkeys : ∀ member ∈ members, ∃ text, member.1 = JsonText.encode text)
      (hvalues : ∀ member ∈ members, Writable member.2) :
      Writable (.object members)

/-! ## Blanks -/

theorem skipBlanks_lineBreak (depth : Nat) (bytes : List UInt8) :
    skipBlanks (lineBreak depth ++ bytes) = skipBlanks bytes := by
  have hblank : ∀ byte ∈ lineBreak depth, isBlank byte = true := by
    intro byte hbyte
    rcases List.mem_cons.mp hbyte with rfl | hspace
    · rfl
    · rw [List.eq_of_mem_replicate hspace]
      rfl
  rw [skipBlanks, List.dropWhile_append_of_pos hblank, skipBlanks]

theorem skipBlanks_cons {byte : UInt8} (hbyte : isBlank byte = false) (bytes : List UInt8) :
    skipBlanks (byte :: bytes) = byte :: bytes := by
  rw [skipBlanks, List.dropWhile_cons, hbyte]
  rfl

theorem readWord?_append (word rest : List UInt8) : readWord? word (word ++ rest) = some rest := by
  induction word with
  | nil => rfl
  | cons byte word ih => simp [readWord?, ih]

/-- No byte that a value begins with is a blank or closes a bracket. -/
theorem Writable.exists_head {json : Json} (hjson : json.Writable) (depth : Nat) :
    ∃ byte bytes, pretty depth json = byte :: bytes ∧ isBlank byte = false ∧ byte ≠ 0x5D := by
  cases hjson with
  | null => exact ⟨_, _, rfl, rfl, by decide⟩
  | bool value => cases value <;> exact ⟨_, _, rfl, rfl, by decide⟩
  | @number numeral hnumeral =>
      obtain ⟨negative, whole, fraction, exponent⟩ := numeral
      obtain ⟨first, others, rfl⟩ := List.exists_cons_of_ne_nil hnumeral.whole.1
      rw [pretty, numeralBytes_eq]
      cases negative with
      | true => exact ⟨_, _, rfl, rfl, by decide⟩
      | false =>
          have hfirst : first < 10 := hnumeral.whole.2 first (List.mem_cons_self ..)
          have hbyte : ∀ digit < 10, isBlank (0x30 + digit).toUInt8 = false ∧
              (0x30 + digit).toUInt8 ≠ 0x5D := by decide
          exact ⟨_, _, rfl, hbyte first hfirst⟩
  | string text => exact ⟨_, _, rfl, rfl, by decide⟩
  | @array items hitems => cases items <;> exact ⟨_, _, rfl, rfl, by decide⟩
  | @object members hkeys hvalues =>
      rcases members with _ | ⟨⟨key, value⟩, members⟩ <;> exact ⟨_, _, rfl, rfl, by decide⟩

theorem Writable.skipBlanks_pretty {json : Json} (hjson : json.Writable) (depth : Nat)
    (rest : List UInt8) :
    skipBlanks (pretty depth json ++ rest) = pretty depth json ++ rest := by
  obtain ⟨byte, bytes, hbytes, hblank, -⟩ := hjson.exists_head depth
  rw [hbytes, List.cons_append, skipBlanks_cons hblank]

theorem endsNumeral_cons {byte : UInt8} (hbyte : isDigit byte = false) (hpoint : byte ≠ 0x2E)
    (hsmall : byte ≠ 0x65) (hlarge : byte ≠ 0x45) (bytes : List UInt8) :
    EndsNumeral (byte :: bytes) := by
  constructor <;> simp [EndsDigits, *]

theorem endsNumeral_lineBreak (depth : Nat) (bytes : List UInt8) :
    EndsNumeral (lineBreak depth ++ bytes) :=
  endsNumeral_cons rfl (by decide) (by decide) (by decide) _

theorem endsNumeral_comma (bytes : List UInt8) : EndsNumeral (0x2C :: bytes) :=
  endsNumeral_cons rfl (by decide) (by decide) (by decide) bytes

/-- A value reads back whatever comes after it. -/
def ReadsBack (json : Json) : Prop :=
  ∀ {depth fuel : Nat} {rest : List UInt8}, 2 * (pretty depth json).length ≤ fuel →
    EndsNumeral rest → readValue? fuel (pretty depth json ++ rest) = some (json, rest)

section

variable {depth fuel : Nat} {bytes later rest : List UInt8}

/-! ## Items -/

theorem readItems?_last {item : Json} (hitem : item.ReadsBack)
    (hfuel : 2 * (pretty depth item).length ≤ fuel) (hbytes : EndsNumeral bytes)
    (hclose : skipBlanks bytes = 0x5D :: rest) :
    readItems? (fuel + 1) (pretty depth item ++ bytes) = some ([item], rest) := by
  rw [readItems?, hitem hfuel hbytes, Option.bind_eq_bind, Option.bind_some]
  dsimp only
  rw [hclose]
  rfl

theorem readItems?_comma {item : Json} {items : List Json} (hitem : item.ReadsBack)
    (hfuel : 2 * (pretty depth item).length ≤ fuel) (hbytes : EndsNumeral bytes)
    (hcomma : skipBlanks bytes = 0x2C :: later)
    (hitems : readItems? fuel (skipBlanks later) = some (items, rest)) :
    readItems? (fuel + 1) (pretty depth item ++ bytes) = some (item :: items, rest) := by
  rw [readItems?, hitem hfuel hbytes, Option.bind_eq_bind, Option.bind_some]
  dsimp only
  rw [hcomma]
  change (readItems? fuel (skipBlanks later) >>= fun next => some (item :: next.1, next.2)) = _
  rw [hitems]
  rfl

/-- The items of an array, from the first one to the closing bracket. -/
theorem readItems?_pretty {first : Json} {others : List Json}
    (hitems : ∀ item ∈ first :: others, item.Writable ∧ item.ReadsBack)
    (hfuel : 2 * (pretty depth first ++ prettyItems depth others).length < fuel)
    (outer : Nat) (rest : List UInt8) :
    readItems? fuel (pretty depth first ++ (prettyItems depth others ++
      (lineBreak outer ++ 0x5D :: rest))) = some (first :: others, rest) := by
  induction others generalizing first fuel with
  | nil =>
      obtain ⟨-, hfirst⟩ := hitems first (List.mem_cons_self ..)
      obtain ⟨fuel, rfl⟩ := Nat.exists_eq_add_one_of_ne_zero (Nat.ne_zero_of_lt hfuel)
      simp only [prettyItems, List.append_nil] at hfuel
      simp only [prettyItems, List.nil_append]
      apply readItems?_last hfirst (Nat.le_of_lt_succ hfuel) (endsNumeral_lineBreak ..)
      rw [skipBlanks_lineBreak, skipBlanks_cons rfl]
  | cons second others ih =>
      obtain ⟨⟨-, hfirst⟩, hothers⟩ := List.forall_mem_cons.mp hitems
      obtain ⟨fuel, rfl⟩ := Nat.exists_eq_add_one_of_ne_zero (Nat.ne_zero_of_lt hfuel)
      have hsecond := (hothers second (List.mem_cons_self ..)).1
      simp only [prettyItems, List.length_append, List.length_cons] at hfuel
      simp only [prettyItems, List.cons_append, List.append_assoc]
      apply readItems?_comma hfirst (by omega) (endsNumeral_comma _) (skipBlanks_cons rfl _)
      rw [skipBlanks_lineBreak, hsecond.skipBlanks_pretty]
      apply ih hothers
      simp only [List.length_append]
      omega

/-! ## Members -/

theorem quoted_append (raw rest : List UInt8) :
    quoted raw ++ rest = 0x22 :: (raw ++ 0x22 :: rest) := by
  rw [quoted, List.cons_append, List.append_assoc, List.singleton_append]

theorem readRaw?_encode (text : String) (rest : List UInt8) :
    readRaw? (JsonText.encode text ++ 0x22 :: rest) = some (JsonText.encode text, rest) :=
  JsonText.readRaw?_flatMap _ rest

/-- A key and its value. -/
structure MemberReadsBack (member : List UInt8 × Json) : Prop where
  key : ∃ text, member.1 = JsonText.encode text
  writable : member.2.Writable
  value : member.2.ReadsBack

theorem readMembers?_value {member : List UInt8 × Json} (hmember : MemberReadsBack member)
    (hfuel : 2 * (pretty depth member.2).length ≤ fuel) (hbytes : EndsNumeral bytes) :
    readMembers? (fuel + 1)
        (quoted member.1 ++ (0x3A :: 0x20 :: (pretty depth member.2 ++ bytes))) =
      (match skipBlanks bytes with
      | 0x7D :: rest => some ([member], rest)
      | 0x2C :: rest => do
          let (members, rest) ← readMembers? fuel (skipBlanks rest)
          return (member :: members, rest)
      | _ => none) := by
  obtain ⟨key, value⟩ := member
  obtain ⟨⟨text, rfl⟩, hwritable, hvalue⟩ := hmember
  have hblank : skipBlanks (0x20 :: (pretty depth value ++ bytes)) = pretty depth value ++ bytes :=
    hwritable.skipBlanks_pretty depth bytes
  rw [quoted_append, readMembers?, readRaw?_encode, Option.bind_eq_bind, Option.bind_some]
  dsimp only
  rw [skipBlanks_cons rfl]
  change (readValue? fuel (skipBlanks (0x20 :: (pretty depth value ++ bytes))) >>= _) = _
  rw [hblank, hvalue hfuel hbytes]
  rfl

theorem readMembers?_last {member : List UInt8 × Json} (hmember : MemberReadsBack member)
    (hfuel : 2 * (pretty depth member.2).length ≤ fuel) (hbytes : EndsNumeral bytes)
    (hclose : skipBlanks bytes = 0x7D :: rest) :
    readMembers? (fuel + 1)
        (quoted member.1 ++ (0x3A :: 0x20 :: (pretty depth member.2 ++ bytes))) =
      some ([member], rest) := by
  rw [readMembers?_value hmember hfuel hbytes, hclose]
  rfl

theorem readMembers?_comma {member : List UInt8 × Json} {members : List (List UInt8 × Json)}
    (hmember : MemberReadsBack member) (hfuel : 2 * (pretty depth member.2).length ≤ fuel)
    (hbytes : EndsNumeral bytes) (hcomma : skipBlanks bytes = 0x2C :: later)
    (hmembers : readMembers? fuel (skipBlanks later) = some (members, rest)) :
    readMembers? (fuel + 1)
        (quoted member.1 ++ (0x3A :: 0x20 :: (pretty depth member.2 ++ bytes))) =
      some (member :: members, rest) := by
  rw [readMembers?_value hmember hfuel hbytes, hcomma]
  change (readMembers? fuel (skipBlanks later) >>= fun next => some (member :: next.1, next.2)) = _
  rw [hmembers]
  rfl

/-- The members of an object, from the first key to the closing brace. -/
theorem readMembers?_pretty {first : List UInt8 × Json} {others : List (List UInt8 × Json)}
    (hmembers : ∀ member ∈ first :: others, MemberReadsBack member)
    (hfuel : 2 * (pretty depth first.2 ++ prettyMembers depth others).length < fuel)
    (outer : Nat) (rest : List UInt8) :
    readMembers? fuel (quoted first.1 ++ (0x3A :: 0x20 :: (pretty depth first.2 ++
      (prettyMembers depth others ++ (lineBreak outer ++ 0x7D :: rest))))) =
        some (first :: others, rest) := by
  induction others generalizing first fuel with
  | nil =>
      have hfirst := hmembers first (List.mem_cons_self ..)
      obtain ⟨fuel, rfl⟩ := Nat.exists_eq_add_one_of_ne_zero (Nat.ne_zero_of_lt hfuel)
      simp only [prettyMembers, List.append_nil] at hfuel
      simp only [prettyMembers, List.nil_append]
      apply readMembers?_last hfirst (Nat.le_of_lt_succ hfuel) (endsNumeral_lineBreak ..)
      rw [skipBlanks_lineBreak, skipBlanks_cons rfl]
  | cons second others ih =>
      obtain ⟨hfirst, hothers⟩ := List.forall_mem_cons.mp hmembers
      obtain ⟨fuel, rfl⟩ := Nat.exists_eq_add_one_of_ne_zero (Nat.ne_zero_of_lt hfuel)
      obtain ⟨key, value⟩ := second
      simp only [prettyMembers, List.length_append, List.length_cons] at hfuel
      simp only [prettyMembers, List.cons_append, List.append_assoc, List.nil_append]
      apply readMembers?_comma hfirst (by omega) (endsNumeral_comma _) (skipBlanks_cons rfl _)
      rw [skipBlanks_lineBreak, quoted_append, skipBlanks_cons rfl, ← quoted_append]
      apply ih hothers
      simp only [List.length_append]
      omega

/-! ## Values -/

theorem readValue?_array {byte : UInt8} {items : List Json}
    (hopen : skipBlanks bytes = byte :: later) (hbyte : byte ≠ 0x5D)
    (hitems : readItems? fuel (byte :: later) = some (items, rest)) :
    readValue? (fuel + 1) (0x5B :: bytes) = some (.array items, rest) := by
  rw [readValue?, if_neg (by decide), if_pos (beq_self_eq_true _), hopen]
  split
  next heq => exact absurd (List.cons.inj heq).1 hbyte
  next => rw [hitems]; rfl

theorem readValue?_object {members : List (List UInt8 × Json)}
    (hopen : skipBlanks bytes = 0x22 :: later)
    (hmembers : readMembers? fuel (0x22 :: later) = some (members, rest)) :
    readValue? (fuel + 1) (0x7B :: bytes) = some (.object members, rest) := by
  rw [readValue?, if_neg (by decide), if_neg (by decide), if_pos (beq_self_eq_true _), hopen]
  change (readMembers? fuel (0x22 :: later) >>= fun next => some (Json.object next.1, next.2)) = _
  rw [hmembers]
  rfl

theorem readValue?_number {byte : UInt8} {numeral : JsonNumeral}
    (hbyte : isDigit byte = true ∨ byte = 0x2D)
    (hnumeral : readNumeral? (byte :: bytes) = some (numeral, rest)) :
    readValue? (fuel + 1) (byte :: bytes) = some (.number numeral, rest) := by
  have hother : ∀ letter ∈ [0x22, 0x5B, 0x7B, 0x6E, 0x74, 0x66], (byte == letter) = false := by
    intro letter hletter
    have hfirst : ¬ (isDigit letter = true ∨ letter = 0x2D) := by
      revert letter
      decide +kernel
    rw [beq_eq_false_iff_ne]
    rintro rfl
    exact hfirst hbyte
  simp only [List.forall_mem_cons, List.not_mem_nil, false_imp_iff, implies_true,
    and_true] at hother
  obtain ⟨hquote, hbracket, hbrace, hnull, htrue, hfalse⟩ := hother
  rw [readValue?, hquote, hbracket, hbrace, hnull, htrue, hfalse, hnumeral]
  rfl

/-- A value has a first byte, and that takes one step. -/
theorem Writable.readsBack_of_succ {json : Json} (hjson : json.Writable)
    (hread : ∀ {depth fuel : Nat} {rest : List UInt8},
      2 * (pretty depth json).length ≤ fuel + 1 → EndsNumeral rest →
        readValue? (fuel + 1) (pretty depth json ++ rest) = some (json, rest)) :
    json.ReadsBack := by
  intro depth fuel rest hfuel hrest
  have hpositive : fuel ≠ 0 := by
    obtain ⟨byte, bytes, hbytes, -⟩ := hjson.exists_head depth
    rw [hbytes, List.length_cons] at hfuel
    omega
  obtain ⟨fuel, rfl⟩ := Nat.exists_eq_add_one_of_ne_zero hpositive
  exact hread hfuel hrest

theorem readsBack_array {items : List Json} (hwritable : ∀ item ∈ items, item.Writable)
    (hitems : ∀ item ∈ items, item.ReadsBack) : (array items).ReadsBack := by
  apply (Writable.array hwritable).readsBack_of_succ
  intro depth fuel rest hfuel _
  cases items with
  | nil => rfl
  | cons first others =>
      have hlength : 2 * (pretty (depth + 1) first ++ prettyItems (depth + 1) others).length <
          fuel := by
        simp only [pretty, List.length_cons, List.length_append] at hfuel ⊢
        omega
      have hread := readItems?_pretty (fun item hitem => ⟨hwritable item hitem, hitems item hitem⟩)
        hlength depth rest
      have hfirst := hwritable first (List.mem_cons_self ..)
      obtain ⟨byte, bytes, hbytes, hblank, hbracket⟩ := hfirst.exists_head (depth + 1)
      simp only [pretty, List.cons_append, List.append_assoc, List.nil_append]
      rw [hbytes, List.cons_append] at hread ⊢
      apply readValue?_array _ hbracket hread
      rw [skipBlanks_lineBreak, skipBlanks_cons hblank]

theorem readsBack_object {members : List (List UInt8 × Json)}
    (hmembers : ∀ member ∈ members, MemberReadsBack member) : (object members).ReadsBack := by
  have hwritable : (object members).Writable :=
    .object (fun member hmember => (hmembers member hmember).key)
      fun member hmember => (hmembers member hmember).writable
  apply hwritable.readsBack_of_succ
  intro depth fuel rest hfuel _
  cases members with
  | nil => rfl
  | cons first others =>
      obtain ⟨key, value⟩ := first
      have hlength : 2 * (pretty (depth + 1) value ++ prettyMembers (depth + 1) others).length <
          fuel := by
        simp only [pretty, List.length_cons, List.length_append] at hfuel ⊢
        omega
      have hread := readMembers?_pretty hmembers hlength depth rest
      rw [quoted_append] at hread
      simp only [pretty, List.cons_append, List.append_assoc, List.nil_append]
      rw [quoted_append]
      apply readValue?_object _ hread
      rw [skipBlanks_lineBreak, skipBlanks_cons rfl]

theorem readsBack_number {numeral : JsonNumeral} (hnumeral : numeral.WellFormed) :
    (number numeral).ReadsBack := by
  apply (Writable.number hnumeral).readsBack_of_succ
  intro depth fuel rest _ hrest
  have hread := readNumeral?_numeralBytes hnumeral hrest
  obtain ⟨byte, bytes, hbytes, hbyte⟩ :
      ∃ byte bytes, numeralBytes numeral = byte :: bytes ∧ (isDigit byte = true ∨ byte = 0x2D) := by
    obtain ⟨negative, whole, fraction, exponent⟩ := numeral
    obtain ⟨first, others, rfl⟩ := List.exists_cons_of_ne_nil hnumeral.whole.1
    rw [numeralBytes_eq]
    cases negative with
    | true => exact ⟨_, _, rfl, .inr rfl⟩
    | false =>
        have hfirst := hnumeral.whole.2 first (List.mem_cons_self ..)
        exact ⟨_, _, rfl, .inl (digitByte first hfirst).1⟩
  rw [pretty]
  rw [hbytes, List.cons_append] at hread ⊢
  exact readValue?_number hbyte hread

theorem readsBack_string (text : String) : (string (JsonText.encode text)).ReadsBack := by
  apply (Writable.string text).readsBack_of_succ
  intro depth fuel rest _ _
  rw [pretty, quoted_append, readValue?, if_pos (beq_self_eq_true _), readRaw?_encode]
  rfl

theorem readsBack_word {json : Json} {letter : UInt8} {word : List UInt8} (hjson : json.Writable)
    (hword : ∀ depth, pretty depth json = letter :: word)
    (hread : ∀ fuel rest, readValue? (fuel + 1) (letter :: (word ++ rest)) =
      (readWord? (letter :: word) (letter :: (word ++ rest))).map fun rest => (json, rest)) :
    json.ReadsBack := by
  apply hjson.readsBack_of_succ
  intro depth fuel rest _ _
  rw [hword, List.cons_append, hread, ← List.cons_append, readWord?_append, Option.map_some]

theorem Writable.readsBack {json : Json} (hjson : json.Writable) : json.ReadsBack := by
  induction hjson with
  | null => exact readsBack_word .null (fun _ => rfl) fun fuel rest => rfl
  | bool value =>
      cases value with
      | true => exact readsBack_word (.bool true) (fun _ => rfl) fun fuel rest => rfl
      | false => exact readsBack_word (.bool false) (fun _ => rfl) fun fuel rest => rfl
  | number hnumeral => exact readsBack_number hnumeral
  | string text => exact readsBack_string text
  | array hitems ih => exact readsBack_array hitems ih
  | object hkeys hvalues ih =>
      exact readsBack_object fun member hmember =>
        ⟨hkeys member hmember, hvalues member hmember, ih member hmember⟩

/-! ## Documents -/

theorem isText_lineBreak (depth : Nat) : Utf8.IsText (lineBreak depth) := by
  apply Utf8.isText_of_forall_lt
  intro byte hbyte
  rcases List.mem_cons.mp hbyte with rfl | hspace
  · decide
  · rw [List.eq_of_mem_replicate hspace]
    decide

theorem isText_quoted {raw : List UInt8} (hraw : Utf8.IsText raw) : Utf8.IsText (quoted raw) :=
  Utf8.isText_cons (by decide) (hraw.append (Utf8.isText_singleton (by decide)))

theorem isText_digitBytes {digits : List Nat} (hdigits : JsonNumeral.Digits digits) :
    Utf8.IsText (digitBytes digits) := by
  have hascii : ∀ digit < 10, (0x30 + digit).toUInt8 < 0x80 := by decide
  apply Utf8.isText_of_forall_lt
  rw [digitBytes, List.forall_mem_map]
  exact fun digit hdigit => hascii digit (hdigits.2 digit hdigit)

theorem isText_numeralBytes {numeral : JsonNumeral} (hnumeral : numeral.WellFormed) :
    Utf8.IsText (numeralBytes numeral) := by
  obtain ⟨negative, whole, fraction, exponent⟩ := numeral
  have hsign : Utf8.IsText (if negative then [0x2D] else []) := by
    cases negative with
    | true => exact Utf8.isText_singleton (by decide)
    | false => exact Utf8.isText_nil
  have hfraction : Utf8.IsText (fractionBytes fraction) := by
    cases fraction with
    | none => exact Utf8.isText_nil
    | some digits =>
        exact Utf8.isText_cons (by decide) (isText_digitBytes (hnumeral.fraction digits rfl))
  have hexponent : Utf8.IsText (exponentBytes exponent) := by
    rcases exponent with _ | ⟨negative, digits⟩
    · exact Utf8.isText_nil
    · have hdigits := isText_digitBytes (hnumeral.exponent (negative, digits) rfl)
      cases negative <;>
        exact Utf8.isText_cons (by decide) (Utf8.isText_cons (by decide) hdigits)
  rw [numeralBytes_eq]
  exact hsign.append ((isText_digitBytes hnumeral.whole).append (hfraction.append hexponent))

theorem isText_prettyItems {items : List Json}
    (hitems : ∀ item ∈ items, Utf8.IsText (pretty depth item)) :
    Utf8.IsText (prettyItems depth items) := by
  induction items with
  | nil => exact Utf8.isText_nil
  | cons item items ih =>
      obtain ⟨hitem, hothers⟩ := List.forall_mem_cons.mp hitems
      rw [prettyItems]
      exact Utf8.isText_cons (by decide) (((isText_lineBreak depth).append hitem).append (ih hothers))

theorem isText_member {key : List UInt8} {value : Json} (hkey : Utf8.IsText key)
    (hvalue : Utf8.IsText (pretty depth value)) :
    Utf8.IsText (lineBreak depth ++ quoted key ++ [0x3A, 0x20] ++ pretty depth value) := by
  have hcolon : Utf8.IsText [0x3A, 0x20] :=
    Utf8.isText_cons (by decide) (Utf8.isText_singleton (by decide))
  exact (((isText_lineBreak depth).append (isText_quoted hkey)).append hcolon).append hvalue

theorem isText_prettyMembers {members : List (List UInt8 × Json)}
    (hkeys : ∀ member ∈ members, Utf8.IsText member.1)
    (hvalues : ∀ member ∈ members, Utf8.IsText (pretty depth member.2)) :
    Utf8.IsText (prettyMembers depth members) := by
  induction members with
  | nil => exact Utf8.isText_nil
  | cons member members ih =>
      obtain ⟨hkey, hotherKeys⟩ := List.forall_mem_cons.mp hkeys
      obtain ⟨hvalue, hotherValues⟩ := List.forall_mem_cons.mp hvalues
      rw [prettyMembers]
      exact Utf8.isText_cons (by decide)
        ((isText_member hkey hvalue).append (ih hotherKeys hotherValues))

theorem Writable.isText_pretty {json : Json} (hjson : json.Writable) (depth : Nat) :
    Utf8.IsText (pretty depth json) := by
  induction hjson generalizing depth with
  | null => exact ⟨"null", rfl⟩
  | bool value =>
      cases value with
      | true => exact ⟨"true", rfl⟩
      | false => exact ⟨"false", rfl⟩
  | number hnumeral => exact isText_numeralBytes hnumeral
  | string text => exact isText_quoted (JsonText.isText_encode text)
  | @array items hitems ih =>
      cases items with
      | nil => exact ⟨"[]", rfl⟩
      | cons first others =>
          obtain ⟨hfirst, hothers⟩ := List.forall_mem_cons.mp ih
          have hitems := isText_prettyItems fun item hitem => hothers item hitem (depth + 1)
          rw [pretty]
          exact Utf8.isText_cons (by decide)
            (((((isText_lineBreak _).append (hfirst _)).append hitems).append
              (isText_lineBreak _)).append (Utf8.isText_singleton (by decide)))
  | @object members hkeys hvalues ih =>
      have hkeyTexts : ∀ member ∈ members, Utf8.IsText member.1 := by
        intro member hmember
        obtain ⟨text, htext⟩ := hkeys member hmember
        rw [htext]
        exact JsonText.isText_encode text
      rcases members with _ | ⟨⟨key, value⟩, others⟩
      · exact ⟨"\x7b\x7d", rfl⟩
      · obtain ⟨hkey, hotherKeys⟩ := List.forall_mem_cons.mp hkeyTexts
        obtain ⟨hvalue, hotherValues⟩ := List.forall_mem_cons.mp ih
        have hmembers := isText_prettyMembers hotherKeys fun member hmember =>
          hotherValues member hmember (depth + 1)
        rw [pretty]
        exact Utf8.isText_cons (by decide)
          ((((isText_member hkey (hvalue _)).append hmembers).append
            (isText_lineBreak _)).append (Utf8.isText_singleton (by decide)))

/-- A document reads back. -/
theorem Writable.parse?_prettyText {json : Json} (hjson : json.Writable) :
    parse? (Utf8.encode (prettyText json)) = some json := by
  have hbytes : Utf8.encode (prettyText json) = pretty 0 json :=
    Utf8.decodeTolerantly_of_isText (hjson.isText_pretty 0)
  have hskip := hjson.skipBlanks_pretty 0 []
  have hread := hjson.readsBack (Nat.le_add_right (2 * (pretty 0 json).length) 2) endsNumeral_nil
  rw [List.append_nil] at hskip hread
  rw [hbytes, parse?, hskip, hread]
  rfl

end

end Json
end NetImport
