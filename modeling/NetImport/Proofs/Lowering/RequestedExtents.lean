import NetImport.Lowering.Layout
import NetImport.Proofs.Sequencing
import NetImport.Proofs.Tensor.RowMajor

/-!
# The extents that a reshape asks for

A requested shape copies extents of the input, gives others, and may leave one open.  It is
resolved when exactly one list of extents fills it and keeps the element count.
-/

namespace NetImport
namespace Lowering

/-- A requested shape can be read: it leaves one extent open at most, copies extents only at
the positions of the input, and gives no others that are negative. -/
structure Readable (rank : Nat) (spec : List Int) : Prop where
  inferred : spec.count (-1) ≤ 1
  lowest : ∀ entry ∈ spec, -1 ≤ entry
  copied : ∀ position, spec[position]? = some 0 → position < rank

/-- What an entry asks of the extent at its position. -/
structure Asks (input : List Nat) (entry : Int × Nat) (extent : Nat) : Prop where
  copied : entry.1 = 0 → input[entry.2]? = some extent
  given : 0 < entry.1 → (extent : Int) = entry.1

/-- Extents that a requested shape asks for and that keep the element count. -/
structure Fills (input : List Nat) (spec : List Int) (dims : List Nat) : Prop where
  asked : List.Forall₂ (Asks input) spec.zipIdx dims
  product_eq : product dims = product input

/-- What an entry is read as. -/
inductive Reads (input : List Nat) : Int × Nat → Option Nat → Prop
  | inferred {position : Nat} : Reads input (-1, position) none
  | copied {position extent : Nat} (hextent : input[position]? = some extent) :
      Reads input (0, position) (some extent)
  | given {entry : Int} {position : Nat} (hpositive : 0 < entry) :
      Reads input (entry, position) (some entry.toNat)

variable {op : Operator} {input dims before after : List Nat} {spec : List Int}
  {position extent : Nat} {open_ : Bool} {entry : Int × Nat} {read : Option Nat}
  {reads : List (Option Nat)}

/-! ## Reading -/

theorem exists_reads_iff :
    (∃ read, Reads input entry read) ↔
      -1 ≤ entry.1 ∧ (entry.1 = 0 → entry.2 < input.length) := by
  constructor
  · rintro ⟨read, hread⟩
    cases hread with
    | inferred => simp
    | copied hextent => simpa using (List.getElem?_eq_some_iff.mp hextent).1
    | given hpositive =>
        dsimp only
        omega
  · obtain ⟨value, position⟩ := entry
    rintro ⟨hlowest, hcopied⟩
    dsimp only at hlowest hcopied
    obtain rfl | rfl | hpositive : value = -1 ∨ value = 0 ∨ 0 < value := by omega
    · exact ⟨none, .inferred⟩
    · exact ⟨_, .copied (List.getElem?_eq_getElem (hcopied rfl))⟩
    · exact ⟨_, .given hpositive⟩

theorem Reads.asks_iff (hread : Reads input entry read) :
    Asks input entry extent ↔ ∀ known ∈ read, extent = known := by
  cases hread with
  | inferred => exact ⟨nofun, fun _ => ⟨by simp, by simp⟩⟩
  | copied hextent =>
      constructor
      · rintro ⟨hcopied, -⟩ known ⟨⟩
        exact Option.some.inj ((hcopied rfl).symm.trans hextent)
      · intro hknown
        exact ⟨fun _ => hknown _ rfl ▸ hextent, by simp⟩
  | given hpositive =>
      constructor
      · rintro ⟨-, hgiven⟩ known ⟨⟩
        have hextent := hgiven hpositive
        omega
      · intro hknown
        have hextent := hknown _ rfl
        refine ⟨fun hzero => ?_, fun _ => ?_⟩
        · dsimp only at hzero
          omega
        · dsimp only
          omega

theorem readExtents_cons_eq_ok_iff {entry : Int} :
    readExtents op input position open_ (entry :: spec) = .ok reads ↔
      ∃ read rest, Reads input (entry, position) read ∧ (entry = -1 → open_ = false) ∧
        readExtents op input (position + 1) (open_ || decide (entry = -1)) spec = .ok rest ∧
        reads = read :: rest := by
  -- only minus one changes whether an extent has been left open
  have hstays (hother : entry ≠ -1) : (open_ || decide (entry = -1)) = open_ := by simp [hother]
  rw [readExtents]
  constructor
  · intro hread
    split at hread
    · next hinferred =>
        subst hinferred
        cases open_ with
        | true => cases hread
        | false =>
            obtain ⟨rest, hrest, hreads⟩ := bind_eq_ok_iff.mp hread
            exact ⟨none, rest, .inferred, fun _ => rfl, hrest, (pure_eq_ok_iff.mp hreads).symm⟩
    · next hinferred =>
        rw [hstays hinferred]
        split at hread
        · next hzero =>
            subst hzero
            split at hread
            · next extent hextent =>
                obtain ⟨rest, hrest, hreads⟩ := bind_eq_ok_iff.mp hread
                exact ⟨some extent, rest, .copied hextent, nofun, hrest,
                  (pure_eq_ok_iff.mp hreads).symm⟩
            · cases hread
        · split at hread
          · cases hread
          · obtain ⟨rest, hrest, hreads⟩ := bind_eq_ok_iff.mp hread
            exact ⟨some entry.toNat, rest, .given (by omega), fun h => absurd h hinferred, hrest,
              (pure_eq_ok_iff.mp hreads).symm⟩
  · rintro ⟨read, rest, hread, hopen, hrest, rfl⟩
    cases hread with
    | inferred =>
        rw [hopen rfl] at hrest ⊢
        exact bind_eq_ok_iff.mpr ⟨rest, hrest, rfl⟩
    | @copied _ extent hextent =>
        rw [hstays (by decide)] at hrest
        rw [if_neg (by decide), if_pos rfl, hextent]
        exact bind_eq_ok_iff.mpr ⟨rest, hrest, rfl⟩
    | given hpositive =>
        have hinferred : entry ≠ -1 := by omega
        rw [if_neg hinferred, if_neg (by omega), if_neg (by omega)]
        rw [hstays hinferred] at hrest
        exact bind_eq_ok_iff.mpr ⟨rest, hrest, rfl⟩

theorem readExtents_eq_ok_iff :
    readExtents op input position open_ spec = .ok reads ↔
      List.Forall₂ (Reads input) (spec.zipIdx position) reads ∧
        spec.count (-1) + open_.toNat ≤ 1 := by
  -- an open extent that has been read counts with those that are still to come
  induction spec generalizing position open_ reads with
  | nil => simp [readExtents, eq_comm, Bool.toNat_le]
  | cons entry spec ih =>
      have hcount : (entry = -1 → open_ = false) ∧
          spec.count (-1) + (open_ || decide (entry = -1)).toNat ≤ 1 ↔
            (entry :: spec).count (-1) + open_.toNat ≤ 1 := by
        rw [List.count_cons]
        by_cases hentry : entry = -1
        · cases open_ <;> simp [hentry]
        · simp [hentry]
      rw [readExtents_cons_eq_ok_iff, List.zipIdx_cons, List.forall₂_cons_left_iff, ← hcount]
      simp only [ih]
      constructor
      · rintro ⟨read, rest, hread, hopen, ⟨hrest, hbelow⟩, rfl⟩
        exact ⟨⟨read, rest, hread, hrest, rfl⟩, hopen, hbelow⟩
      · rintro ⟨⟨read, rest, hread, hrest, rfl⟩, hopen, hbelow⟩
        exact ⟨read, rest, hread, hopen, ⟨hrest, hbelow⟩, rfl⟩

theorem malformed_of_readExtents {error : LoadError}
    (herror : readExtents op input position open_ spec = .error error) :
    ∃ detail, error = op.malformed "shape" detail := by
  induction spec generalizing position open_ with
  | nil => cases herror
  | cons entry spec ih =>
      -- an entry that can be read passes on the refusal of a later one
      have hrest {next : Nat} {opened : Bool} {f : List (Option Nat) → List (Option Nat)}
          (hbind : (do return f (← readExtents op input next opened spec)) = .error error) :
          ∃ detail, error = op.malformed "shape" detail := by
        cases hread : readExtents op input next opened spec with
        | error first =>
            rw [hread] at hbind
            obtain rfl := Except.error.inj hbind
            exact ih hread
        | ok rest =>
            rw [hread] at hbind
            cases hbind
      rw [readExtents] at herror
      split at herror
      · cases open_ with
        | true => exact ⟨_, (Except.error.inj herror).symm⟩
        | false => exact hrest herror
      · split at herror
        · split at herror
          · exact hrest herror
          · exact ⟨_, (Except.error.inj herror).symm⟩
        · split at herror
          · exact ⟨_, (Except.error.inj herror).symm⟩
          · exact hrest herror

theorem exists_readExtents_iff :
    (∃ reads, readExtents op input 0 false spec = .ok reads) ↔ Readable input.length spec := by
  simp only [readExtents_eq_ok_iff, exists_and_right, exists_forall₂_iff, exists_reads_iff]
  constructor
  · rintro ⟨hentries, hinferred⟩
    refine ⟨hinferred, fun entry hentry => ?_, fun position hzero => ?_⟩
    · obtain ⟨position, hposition⟩ := List.mem_iff_getElem?.mp hentry
      exact (hentries (entry, position) (List.mem_zipIdx_iff_getElem?.mpr hposition)).1
    · exact (hentries (0, position) (List.mem_zipIdx_iff_getElem?.mpr hzero)).2 rfl
  · intro hreadable
    refine ⟨fun entry hentry => ⟨?_, fun hzero => ?_⟩, hreadable.inferred⟩
    · exact hreadable.lowest _ (List.mem_of_getElem? (List.mem_zipIdx_iff_getElem?.mp hentry))
    · exact hreadable.copied _ (hzero ▸ List.mem_zipIdx_iff_getElem?.mp hentry)

/-! ## Extents for what has been read -/

theorem count_none_of_reads (hreads : List.Forall₂ (Reads input) (spec.zipIdx position) reads) :
    reads.count none = spec.count (-1) := by
  induction spec generalizing position reads with
  | nil =>
      cases hreads
      rfl
  | cons entry spec ih =>
      rw [List.zipIdx_cons] at hreads
      cases hreads with
      | cons hread hrest =>
          rw [List.count_cons, List.count_cons, ih hrest]
          cases hread with
          | inferred => rfl
          | copied hextent => rfl
          | given hpositive =>
              have hother : entry ≠ -1 := by omega
              simp [hother]

theorem forall₂_asks_iff {entries : List (Int × Nat)}
    (hreads : List.Forall₂ (Reads input) entries reads) :
    List.Forall₂ (Asks input) entries dims ↔
      List.Forall₂ (fun read extent => ∀ known ∈ read, extent = known) reads dims := by
  induction hreads generalizing dims with
  | nil => simp
  | cons hread _ ih =>
      rw [List.forall₂_cons_left_iff, List.forall₂_cons_left_iff]
      simp only [hread.asks_iff, ih]

theorem forall₂_known_iff {known : List Nat} :
    List.Forall₂ (fun read extent => ∀ k ∈ read, extent = k) (known.map some) dims ↔
      dims = known := by
  rw [List.forall₂_map_left_iff]
  simp only [Option.mem_some_iff, forall_eq']
  constructor
  · intro hall
    exact (congrFun₂ List.forall₂_eq_eq_eq dims known).mp hall.flip
  · rintro rfl
    exact List.forall₂_same.mpr fun _ _ => rfl

theorem forall₂_open_iff :
    List.Forall₂ (fun read extent => ∀ k ∈ read, extent = k)
      (before.map some ++ none :: after.map some) dims ↔
      ∃ extent, dims = before ++ extent :: after := by
  induction before generalizing dims with
  | nil =>
      simp only [List.map_nil, List.nil_append, List.forall₂_cons_left_iff, forall₂_known_iff]
      simp
  | cons extent before ih =>
      simp only [List.map_cons, List.cons_append, List.forall₂_cons_left_iff, ih]
      simp

theorem eq_map_some_of_none_notMem (hnone : none ∉ reads) :
    ∃ known : List Nat, reads = known.map some := by
  refine ⟨reads.map fun read => read.getD 0, ?_⟩
  rw [List.map_map]
  refine (List.map_id reads).symm.trans (List.map_congr_left fun read hread => ?_)
  cases read with
  | none => exact absurd hread hnone
  | some extent => rfl

theorem all_known_or_one_open (hcount : reads.count none ≤ 1) :
    (∃ known : List Nat, reads = known.map some) ∨
      ∃ before after : List Nat, reads = before.map some ++ none :: after.map some := by
  by_cases hnone : none ∈ reads
  · obtain ⟨front, back, rfl⟩ := List.append_of_mem hnone
    rw [List.count_append, List.count_cons_self] at hcount
    have hfront : front.count none = 0 := by omega
    have hback : back.count none = 0 := by omega
    obtain ⟨before, rfl⟩ := eq_map_some_of_none_notMem (List.count_eq_zero.mp hfront)
    obtain ⟨after, rfl⟩ := eq_map_some_of_none_notMem (List.count_eq_zero.mp hback)
    exact .inr ⟨before, after, rfl⟩
  · exact .inl (eq_map_some_of_none_notMem hnone)

/-! ## Resolved extents -/

theorem map_getD_known (known : List Nat) (left : Nat) :
    (known.map some).map (fun read => read.getD left) = known := by
  rw [List.map_map]
  exact List.map_id known

theorem map_getD_open (before after : List Nat) (left : Nat) :
    (before.map some ++ none :: after.map some).map (fun read => read.getD left) =
      before ++ left :: after := by
  rw [List.map_append, List.map_cons, map_getD_known, map_getD_known]
  rfl

theorem product_around (before after : List Nat) (extent : Nat) :
    product (before ++ extent :: after) = product (before ++ 1 :: after) * extent := by
  rw [product_append, product_append, product_cons, product_cons, Nat.one_mul, Nat.mul_assoc,
    Nat.mul_comm extent]

theorem resolveExtents_of_known {known : List Nat}
    (hread : readExtents op input 0 false spec = .ok (known.map some)) :
    (product known = product input ∧ resolveExtents op input spec = .ok known) ∨
      product known ≠ product input ∧
        ∃ detail, resolveExtents op input spec = .error (shapeError op detail) := by
  simp only [resolveExtents, hread, ok_bind, map_getD_known]
  rw [if_neg (by simp)]
  by_cases hproduct : product known = product input
  · rw [if_neg (not_not.mpr hproduct)]
    exact .inl ⟨hproduct, rfl⟩
  · rw [if_pos hproduct]
    exact .inr ⟨hproduct, _, rfl⟩

theorem resolveExtents_of_open
    (hread : readExtents op input 0 false spec = .ok (before.map some ++ none :: after.map some)) :
    (product (before ++ 1 :: after) ≠ 0 ∧ ∃ left,
      product (before ++ left :: after) = product input ∧
        resolveExtents op input spec = .ok (before ++ left :: after)) ∨
      (product (before ++ 1 :: after) = 0 ∨ ¬product (before ++ 1 :: after) ∣ product input) ∧
        ∃ detail, resolveExtents op input spec = .error (shapeError op detail) := by
  have hopen : (before.map some ++ none :: after.map some).contains none = true := by simp
  simp only [resolveExtents, hread, ok_bind, map_getD_open]
  by_cases hundetermined : product (before ++ 1 :: after) = 0 ∨
      product input % product (before ++ 1 :: after) ≠ 0
  · rw [if_pos ⟨hopen, hundetermined⟩]
    exact .inr ⟨hundetermined.imp_right fun hrest => mt Nat.mod_eq_zero_of_dvd hrest, _, rfl⟩
  · obtain ⟨hpositive, hdivides⟩ := not_or.mp hundetermined
    have hleft : product (before ++ (product input / product (before ++ 1 :: after)) :: after) =
        product input := by
      rw [product_around, Nat.mul_div_cancel' (Nat.dvd_of_mod_eq_zero (not_not.mp hdivides))]
    rw [if_neg fun hboth => hundetermined hboth.2, if_neg (not_not.mpr hleft)]
    exact .inl ⟨hpositive, _, hleft, rfl⟩

theorem fills_iff_of_read (hread : readExtents op input 0 false spec = .ok reads) :
    Fills input spec dims ↔
      List.Forall₂ (fun read extent => ∀ k ∈ read, extent = k) reads dims ∧
        product dims = product input := by
  rw [← forall₂_asks_iff (readExtents_eq_ok_iff.mp hread).1]
  exact ⟨fun hfills => ⟨hfills.asked, hfills.product_eq⟩, fun hboth => ⟨hboth.1, hboth.2⟩⟩

theorem extent_eq_of_product_eq {left : Nat} (hpositive : product (before ++ 1 :: after) ≠ 0)
    (hproduct : product (before ++ extent :: after) = product (before ++ left :: after)) :
    extent = left := by
  rw [product_around, product_around before after left] at hproduct
  exact Nat.eq_of_mul_eq_mul_left (Nat.pos_of_ne_zero hpositive) hproduct

/-- A requested shape that can be read is resolved to the extents that fill it, if these are the
only ones, and is refused otherwise. -/
theorem resolveExtents_of_readable (hreadable : Readable input.length spec) :
    (∃ dims, resolveExtents op input spec = .ok dims ∧ Fills input spec dims ∧
      ∀ other, Fills input spec other → other = dims) ∨
      (∃ detail, resolveExtents op input spec = .error (shapeError op detail)) ∧
        ¬∃! dims, Fills input spec dims := by
  obtain ⟨reads, hread⟩ := (@exists_readExtents_iff op input spec).mpr hreadable
  obtain ⟨hreads, -⟩ := readExtents_eq_ok_iff.mp hread
  have hcount : reads.count none ≤ 1 := count_none_of_reads hreads ▸ hreadable.inferred
  simp only [ExistsUnique, fills_iff_of_read hread]
  rcases all_known_or_one_open hcount with ⟨known, rfl⟩ | ⟨before, after, rfl⟩
  · simp only [forall₂_known_iff]
    rcases resolveExtents_of_known hread with ⟨hproduct, hresolved⟩ | ⟨hproduct, hrefused⟩
    · exact .inl ⟨known, hresolved, ⟨rfl, hproduct⟩, fun other hother => hother.1⟩
    · refine .inr ⟨hrefused, ?_⟩
      rintro ⟨_, ⟨rfl, hfilled⟩, -⟩
      exact hproduct hfilled
  · simp only [forall₂_open_iff]
    rcases resolveExtents_of_open hread with
      ⟨hpositive, left, hleft, hresolved⟩ | ⟨hundetermined, hrefused⟩
    · refine .inl ⟨_, hresolved, ⟨⟨left, rfl⟩, hleft⟩, ?_⟩
      rintro _ ⟨⟨extent, rfl⟩, hextent⟩
      rw [extent_eq_of_product_eq hpositive (hextent.trans hleft.symm)]
    · refine .inr ⟨hrefused, ?_⟩
      rintro ⟨_, ⟨⟨extent, rfl⟩, hextent⟩, honly⟩
      rw [product_around] at hextent
      rcases hundetermined with hzero | hdivides
      · -- without elements any extent fills the open place
        have hmore : product (before ++ (extent + 1) :: after) = product input := by
          rw [product_around, ← hextent, hzero, Nat.zero_mul, Nat.zero_mul]
        have hsame := honly (before ++ (extent + 1) :: after) ⟨⟨_, rfl⟩, hmore⟩
        simp at hsame
      · exact hdivides ⟨extent, hextent.symm⟩

theorem resolveExtents_eq_ok_iff (hreadable : Readable input.length spec) :
    resolveExtents op input spec = .ok dims ↔
      Fills input spec dims ∧ ∀ other, Fills input spec other → other = dims := by
  rcases @resolveExtents_of_readable op input spec hreadable with
    ⟨found, hresolved, honly⟩ | ⟨⟨detail, hrefused⟩, hundetermined⟩
  · rw [hresolved, Except.ok.injEq]
    constructor
    · rintro rfl
      exact honly
    · rintro ⟨hfills, -⟩
      exact (honly.2 dims hfills).symm
  · rw [hrefused]
    constructor
    · nofun
    · exact fun honly => absurd ⟨dims, honly⟩ hundetermined

theorem resolveExtents_of_undetermined (hreadable : Readable input.length spec)
    (hundetermined : ¬∃! dims, Fills input spec dims) :
    ∃ detail, resolveExtents op input spec = .error (shapeError op detail) := by
  rcases @resolveExtents_of_readable op input spec hreadable with ⟨dims, -, honly⟩ | ⟨hrefused, -⟩
  · exact absurd ⟨dims, honly⟩ hundetermined
  · exact hrefused

theorem resolveExtents_of_not_readable (hreadable : ¬Readable input.length spec) :
    ∃ detail, resolveExtents op input spec = .error (op.malformed "shape" detail) := by
  cases hread : readExtents op input 0 false spec with
  | ok reads => exact absurd (exists_readExtents_iff.mp ⟨reads, hread⟩) hreadable
  | error error =>
      obtain ⟨detail, rfl⟩ := malformed_of_readExtents hread
      refine ⟨detail, ?_⟩
      rw [resolveExtents, hread]
      rfl

theorem product_eq_of_resolveExtents (hresolved : resolveExtents op input spec = .ok dims) :
    product dims = product input := by
  by_cases hreadable : Readable input.length spec
  · exact ((resolveExtents_eq_ok_iff hreadable).mp hresolved).1.product_eq
  · obtain ⟨detail, hrefused⟩ := @resolveExtents_of_not_readable op input spec hreadable
    cases hresolved.symm.trans hrefused

end Lowering
end NetImport
