/-!
# Variable-length integers

An integer of up to 64 bits is written in groups of seven bits, least
significant first, and every byte but the last has its high bit set.
-/

namespace NetImport
namespace Varint

def encode (n : Nat) : List UInt8 :=
  if n < 128 then [n.toUInt8] else (n % 128 + 128).toUInt8 :: encode (n / 128)
termination_by n
decreasing_by omega

/-- Reads up to `count` groups. -/
def readGroups? : Nat → List UInt8 → Option (Nat × List UInt8)
  | 0, _ => none
  | _ + 1, [] => none
  | count + 1, byte :: rest =>
      if byte.toNat < 128 then some (byte.toNat, rest)
      else do
        let (high, rest) ← readGroups? count rest
        return (byte.toNat - 128 + 128 * high, rest)

/-- Ten groups hold every integer of 64 bits. -/
def mostGroups : Nat := 10

def read? (bytes : List UInt8) : Option (Nat × List UInt8) := do
  let (value, rest) ← readGroups? mostGroups bytes
  if value < UInt64.size then some (value, rest) else none

theorem length_of_readGroups? {count value : Nat} {bytes rest : List UInt8}
    (hread : readGroups? count bytes = some (value, rest)) : rest.length < bytes.length := by
  induction count generalizing value bytes rest with
  | zero => simp [readGroups?] at hread
  | succ count ih =>
      cases bytes with
      | nil => simp [readGroups?] at hread
      | cons byte tail =>
          rw [readGroups?] at hread
          split at hread
          · simp only [Option.some.injEq, Prod.mk.injEq] at hread
            simp [hread.2]
          · obtain ⟨⟨high, rest'⟩, hhigh, hresult⟩ := Option.bind_eq_some_iff.mp hread
            simp only [Option.pure_def, Option.some.injEq, Prod.mk.injEq] at hresult
            rw [← hresult.2]
            exact Nat.lt_succ_of_lt (ih hhigh)

/-- Reading takes at least one byte. -/
theorem length_of_read? {value : Nat} {bytes rest : List UInt8}
    (hread : read? bytes = some (value, rest)) : rest.length < bytes.length := by
  obtain ⟨⟨value', rest'⟩, hgroups, hresult⟩ := Option.bind_eq_some_iff.mp hread
  dsimp only at hresult
  split at hresult
  · simp only [Option.some.injEq, Prod.mk.injEq] at hresult
    exact hresult.2 ▸ length_of_readGroups? hgroups
  · cases hresult

theorem readGroups?_encode (count n : Nat) (rest : List UInt8) (hn : n < Nat.pow 128 (count + 1)) :
    readGroups? (count + 1) (encode n ++ rest) = some (n, rest) := by
  induction count generalizing n with
  | zero =>
      have hsmall : n < 128 := by omega
      have hbyte : n % 256 = n := by omega
      rw [encode, if_pos hsmall]
      simp [readGroups?, hbyte, hsmall]
  | succ count ih =>
      rw [encode]
      split
      · next hsmall =>
          have hbyte : n % 256 = n := by omega
          simp [readGroups?, hbyte, hsmall]
      · have hbyte : (n % 128 + 128) % 256 = n % 128 + 128 := by omega
        have hquotient : n / 128 < Nat.pow 128 (count + 1) := by
          rw [Nat.div_lt_iff_lt_mul (by omega)]
          exact hn
        have hbig : ¬ n % 128 + 128 < 128 := by omega
        simp [readGroups?, hbyte, hbig, ih _ hquotient, Nat.mod_add_div]

/-- Reading undoes writing, whatever follows. -/
theorem read?_encode {n : Nat} (hn : n < UInt64.size) (rest : List UInt8) :
    read? (encode n ++ rest) = some (n, rest) := by
  have hgroups : readGroups? mostGroups (encode n ++ rest) = some (n, rest) :=
    readGroups?_encode 9 n rest (Nat.lt_trans hn (by decide))
  rw [read?, hgroups]
  exact if_pos hn

end Varint
end NetImport
