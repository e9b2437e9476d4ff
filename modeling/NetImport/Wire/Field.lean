import NetImport.Wire.Varint

/-!
# Fields of a wire message

A message is a sequence of fields.  Each begins with a key, which holds a field
number and the form of the payload.  A reader that does not know a field number
passes over the payload; the obsolete group form can be passed over only.
-/

namespace NetImport
namespace Wire

inductive Form where
  | varint
  | fixed64
  | delimited
  | groupStart
  | groupEnd
  | fixed32
deriving DecidableEq, Repr

namespace Form

def code : Form → Nat
  | .varint => 0
  | .fixed64 => 1
  | .delimited => 2
  | .groupStart => 3
  | .groupEnd => 4
  | .fixed32 => 5

def ofCode? : Nat → Option Form
  | 0 => some .varint
  | 1 => some .fixed64
  | 2 => some .delimited
  | 3 => some .groupStart
  | 4 => some .groupEnd
  | 5 => some .fixed32
  | _ => none

end Form

/-- A payload; what a group holds is not kept. -/
inductive Payload where
  | varint (value : Nat)
  | fixed64 (bytes : List UInt8)
  | delimited (bytes : List UInt8)
  | fixed32 (bytes : List UInt8)
  | group
deriving DecidableEq, Repr

structure Field where
  number : Nat
  payload : Payload
deriving DecidableEq, Repr

/-- Takes exactly `count` bytes. -/
def take? : Nat → List UInt8 → Option (List UInt8 × List UInt8)
  | 0, bytes => some ([], bytes)
  | _ + 1, [] => none
  | count + 1, byte :: bytes => do
      let (taken, rest) ← take? count bytes
      return (byte :: taken, rest)

/-- Keys have 32 bits, three of them for the form, and no field has number zero. -/
def readKey? (bytes : List UInt8) : Option (Nat × Form × List UInt8) := do
  let (key, rest) ← Varint.read? bytes
  let form ← Form.ofCode? (key % 8)
  if key < UInt32.size ∧ 0 < key / 8 then some (key / 8, form, rest) else none

def readDelimited? (bytes : List UInt8) : Option (List UInt8 × List UInt8) := do
  let (length, rest) ← Varint.read? bytes
  take? length rest

/-- Reads a payload that is no group. -/
def readPayload? (form : Form) (bytes : List UInt8) : Option (Payload × List UInt8) := do
  match form with
  | .varint =>
      let (value, rest) ← Varint.read? bytes
      return (.varint value, rest)
  | .fixed64 =>
      let (taken, rest) ← take? 8 bytes
      return (.fixed64 taken, rest)
  | .delimited =>
      let (taken, rest) ← readDelimited? bytes
      return (.delimited taken, rest)
  | .fixed32 =>
      let (taken, rest) ← take? 4 bytes
      return (.fixed32 taken, rest)
  | .groupStart => none
  | .groupEnd => none

theorem length_of_take? {count : Nat} {bytes taken rest : List UInt8}
    (htake : take? count bytes = some (taken, rest)) : rest.length ≤ bytes.length := by
  induction count generalizing bytes taken rest with
  | zero =>
      simp only [take?, Option.some.injEq, Prod.mk.injEq] at htake
      simp [htake.2]
  | succ count ih =>
      cases bytes with
      | nil => simp [take?] at htake
      | cons byte bytes =>
          obtain ⟨⟨taken', rest'⟩, htaken, hresult⟩ := Option.bind_eq_some_iff.mp htake
          simp only [Option.pure_def, Option.some.injEq, Prod.mk.injEq] at hresult
          rw [← hresult.2]
          exact Nat.le_succ_of_le (ih htaken)

theorem length_of_readKey? {bytes rest : List UInt8} {number : Nat} {form : Form}
    (hkey : readKey? bytes = some (number, form, rest)) : rest.length < bytes.length := by
  obtain ⟨⟨key, rest'⟩, hread, hresult⟩ := Option.bind_eq_some_iff.mp hkey
  obtain ⟨form', hform, hresult⟩ := Option.bind_eq_some_iff.mp hresult
  split at hresult
  · simp only [Option.some.injEq, Prod.mk.injEq] at hresult
    exact hresult.2.2 ▸ Varint.length_of_read? hread
  · cases hresult

theorem length_of_readPayload? {form : Form} {bytes rest : List UInt8} {payload : Payload}
    (hpayload : readPayload? form bytes = some (payload, rest)) :
    rest.length ≤ bytes.length := by
  cases form with
  | varint =>
      obtain ⟨⟨value, rest'⟩, hread, hresult⟩ := Option.bind_eq_some_iff.mp hpayload
      simp only [Option.pure_def, Option.some.injEq, Prod.mk.injEq] at hresult
      exact hresult.2 ▸ Nat.le_of_lt (Varint.length_of_read? hread)
  | fixed64 =>
      obtain ⟨⟨value, rest'⟩, hread, hresult⟩ := Option.bind_eq_some_iff.mp hpayload
      simp only [Option.pure_def, Option.some.injEq, Prod.mk.injEq] at hresult
      exact hresult.2 ▸ length_of_take? hread
  | delimited =>
      obtain ⟨⟨value, rest'⟩, hread, hresult⟩ := Option.bind_eq_some_iff.mp hpayload
      simp only [Option.pure_def, Option.some.injEq, Prod.mk.injEq] at hresult
      obtain ⟨⟨length, rest''⟩, hlength, htake⟩ := Option.bind_eq_some_iff.mp hread
      exact hresult.2 ▸ Nat.le_trans (length_of_take? htake)
        (Nat.le_of_lt (Varint.length_of_read? hlength))
  | groupStart => cases hpayload
  | groupEnd => cases hpayload
  | fixed32 =>
      obtain ⟨⟨value, rest'⟩, hread, hresult⟩ := Option.bind_eq_some_iff.mp hpayload
      simp only [Option.pure_def, Option.some.injEq, Prod.mk.injEq] at hresult
      exact hresult.2 ▸ length_of_take? hread

/-- Passes over one field inside the open groups, innermost first, or over the end
of the innermost one.  Fields inside `depth` or more groups are refused. -/
def skipStep? (depth innermost : Nat) (outer : List Nat) (bytes : List UInt8) :
    Option (List Nat × List UInt8) := do
  let (number, form, rest) ← readKey? bytes
  if form = .groupEnd then
    if number = innermost then some (outer, rest) else none
  else if depth ≤ outer.length + 1 then none
  else if form = .groupStart then some (number :: innermost :: outer, rest)
  else
    let (_, rest) ← readPayload? form rest
    return (innermost :: outer, rest)

theorem length_of_skipStep? {depth innermost : Nat} {outer groups : List Nat}
    {bytes rest : List UInt8}
    (hstep : skipStep? depth innermost outer bytes = some (groups, rest)) :
    rest.length < bytes.length := by
  obtain ⟨⟨number, form, rest'⟩, hkey, hresult⟩ := Option.bind_eq_some_iff.mp hstep
  refine Nat.lt_of_le_of_lt ?_ (length_of_readKey? hkey)
  dsimp only at hresult
  split at hresult
  · split at hresult
    · simp only [Option.some.injEq, Prod.mk.injEq] at hresult
      simp [hresult.2]
    · cases hresult
  · split at hresult
    · cases hresult
    · split at hresult
      · simp only [Option.some.injEq, Prod.mk.injEq] at hresult
        simp [hresult.2]
      · obtain ⟨⟨payload, rest''⟩, hpayload, hresult⟩ := Option.bind_eq_some_iff.mp hresult
        simp only [Option.pure_def, Option.some.injEq, Prod.mk.injEq] at hresult
        exact hresult.2 ▸ length_of_readPayload? hpayload

def skipGroups? (depth : Nat) (groups : List Nat) (bytes : List UInt8) :
    Option (List UInt8) :=
  match groups with
  | [] => some bytes
  | innermost :: outer =>
      match hstep : skipStep? depth innermost outer bytes with
      | none => none
      | some (groups, rest) =>
          have _hshorter := length_of_skipStep? hstep
          skipGroups? depth groups rest
termination_by bytes.length

theorem length_of_skipGroups? (depth : Nat) (groups : List Nat) (bytes rest : List UInt8)
    (hskip : skipGroups? depth groups bytes = some rest) : rest.length ≤ bytes.length := by
  fun_induction skipGroups? depth groups bytes with
  | case1 bytes => simp_all
  | case2 => cases hskip
  | case3 bytes innermost outer groups next hstep hshorter ih =>
      exact Nat.le_trans (ih hskip) (Nat.le_of_lt hshorter)

def readField? (depth : Nat) (bytes : List UInt8) : Option (Field × List UInt8) := do
  let (number, form, rest) ← readKey? bytes
  match form with
  | .groupStart =>
      let rest ← skipGroups? depth [number] rest
      return (⟨number, .group⟩, rest)
  | form =>
      let (payload, rest) ← readPayload? form rest
      return (⟨number, payload⟩, rest)

theorem length_of_readField? {depth : Nat} {bytes rest : List UInt8} {field : Field}
    (hfield : readField? depth bytes = some (field, rest)) : rest.length < bytes.length := by
  obtain ⟨⟨number, form, rest'⟩, hkey, hresult⟩ := Option.bind_eq_some_iff.mp hfield
  refine Nat.lt_of_le_of_lt ?_ (length_of_readKey? hkey)
  dsimp only at hresult
  split at hresult
  · obtain ⟨rest'', hskip, hresult⟩ := Option.bind_eq_some_iff.mp hresult
    simp only [Option.pure_def, Option.some.injEq, Prod.mk.injEq] at hresult
    exact hresult.2 ▸ length_of_skipGroups? _ _ _ _ hskip
  · obtain ⟨⟨payload, rest''⟩, hpayload, hresult⟩ := Option.bind_eq_some_iff.mp hresult
    simp only [Option.pure_def, Option.some.injEq, Prod.mk.injEq] at hresult
    exact hresult.2 ▸ length_of_readPayload? hpayload

/-- Reads all fields of a message. -/
def readFields? (depth : Nat) (bytes : List UInt8) : Option (List Field) :=
  match bytes with
  | [] => some []
  | byte :: tail =>
      match _hfield : readField? depth (byte :: tail) with
      | none => none
      | some (field, rest) =>
          (readFields? depth rest).map (field :: ·)
termination_by bytes.length
decreasing_by exact length_of_readField? _hfield

def encodeKey (number : Nat) (form : Form) : List UInt8 :=
  Varint.encode (8 * number + form.code)

def encodeVarint (number value : Nat) : List UInt8 :=
  encodeKey number .varint ++ Varint.encode value

def encodeDelimited (number : Nat) (bytes : List UInt8) : List UInt8 :=
  encodeKey number .delimited ++ Varint.encode bytes.length ++ bytes

def encodeFixed32 (number : Nat) (bytes : List UInt8) : List UInt8 :=
  encodeKey number .fixed32 ++ bytes

end Wire
end NetImport
