import NetImport.Numeric.Binary

/-!
# Operator arguments

An argument is a number, a text or a list of either.  The arguments of an
operator are kept in the order of their names, one value for each name, so two
argument tables are equal exactly when every lookup agrees.
-/

namespace NetImport

/-- A 32-bit floating-point number by its bits, which keeps apart the patterns
that denote no number. -/
structure RawSingle where
  bits : UInt32
deriving DecidableEq, Repr, Inhabited

namespace RawSingle

def value (raw : RawSingle) : Float32 := Float32.ofBits raw.bits

def datum (raw : RawSingle) : Binary.Datum := Binary.single.decode raw.bits.toNat

def ofDatum (datum : Binary.Datum) : RawSingle := ⟨(Binary.single.encode datum).toUInt32⟩

/-- The same value as a 64-bit number. -/
def widen (raw : RawSingle) : Float := Binary.toDouble raw.datum

/-- Equality of values: no number equals itself when it is none. -/
def sameValue (lhs rhs : RawSingle) : Bool := lhs.value == rhs.value

end RawSingle

inductive ArgValue where
  | int (value : Int64)
  | float (value : RawSingle)
  | text (value : String)
  | ints (values : List Int64)
  | floats (values : List RawSingle)
  | texts (values : List String)
deriving DecidableEq, Repr, Inhabited

namespace ArgValue

def kindName : ArgValue → String
  | .int _ => "int"
  | .float _ => "float"
  | .text _ => "string"
  | .ints _ => "ints"
  | .floats _ => "floats"
  | .texts _ => "strings"

def sameValue : ArgValue → ArgValue → Bool
  | .float x, .float y => x.sameValue y
  | .floats xs, .floats ys =>
      xs.length == ys.length && (List.zipWith RawSingle.sameValue xs ys).all id
  | x, y => x == y

end ArgValue

/-- Entries in strictly ascending order of their names. -/
def AscendingNames (entries : List (String × ArgValue)) : Prop :=
  entries.Pairwise fun a b => a.1 < b.1

structure Arguments where
  entries : List (String × ArgValue)
  ascending : AscendingNames entries

namespace Arguments

def empty : Arguments := ⟨[], List.Pairwise.nil⟩

instance : Inhabited Arguments := ⟨empty⟩

/-- Inserts in order, over an entry of the same name. -/
def insertEntry (name : String) (value : ArgValue) :
    List (String × ArgValue) → List (String × ArgValue)
  | [] => [(name, value)]
  | entry :: entries =>
      if name < entry.1 then (name, value) :: entry :: entries
      else if name = entry.1 then (name, value) :: entries
      else entry :: insertEntry name value entries

theorem mem_insertEntry {name : String} {value : ArgValue} {entry : String × ArgValue}
    {entries : List (String × ArgValue)} (hmem : entry ∈ insertEntry name value entries) :
    entry = (name, value) ∨ entry ∈ entries := by
  induction entries with
  | nil => exact .inl (List.mem_singleton.mp hmem)
  | cons head tail ih =>
      rw [insertEntry] at hmem
      split at hmem
      · exact List.mem_cons.mp hmem
      · split at hmem
        · exact (List.mem_cons.mp hmem).imp_right (List.mem_cons_of_mem head)
        · rcases List.mem_cons.mp hmem with rfl | htail
          · exact .inr (List.mem_cons_self ..)
          · exact (ih htail).imp_right (List.mem_cons_of_mem head)

theorem ascending_insertEntry (name : String) (value : ArgValue)
    {entries : List (String × ArgValue)} (hascending : AscendingNames entries) :
    AscendingNames (insertEntry name value entries) := by
  induction entries with
  | nil => exact List.pairwise_singleton ..
  | cons head tail ih =>
      obtain ⟨hhead, htail⟩ := List.pairwise_cons.mp hascending
      rw [insertEntry]
      split
      · next hless =>
          refine List.pairwise_cons.mpr ⟨fun entry hentry => ?_, hascending⟩
          rcases List.mem_cons.mp hentry with rfl | htailMem
          · exact hless
          · exact String.lt_trans hless (hhead entry htailMem)
      · next hnotLess =>
          split
          · next hname =>
              exact List.pairwise_cons.mpr ⟨fun entry hentry => hname ▸ hhead entry hentry, htail⟩
          · next hname =>
              refine List.pairwise_cons.mpr ⟨fun entry hentry => ?_, ih htail⟩
              rcases mem_insertEntry hentry with rfl | htailMem
              · exact Std.lt_of_le_of_ne (String.not_lt.mp hnotLess) (Ne.symm hname)
              · exact hhead entry htailMem

def insert (arguments : Arguments) (name : String) (value : ArgValue) : Arguments where
  entries := insertEntry name value arguments.entries
  ascending := ascending_insertEntry name value arguments.ascending

/-- The table of a list of entries, in which later entries of a name win. -/
def ofList (entries : List (String × ArgValue)) : Arguments :=
  entries.foldl (fun arguments entry => arguments.insert entry.1 entry.2) empty

def get? (arguments : Arguments) (name : String) : Option ArgValue :=
  (arguments.entries.find? fun entry => entry.1 = name).map Prod.snd

def contains (arguments : Arguments) (name : String) : Bool :=
  (arguments.get? name).isSome

/-- The same names with the same values. -/
def sameValues (lhs rhs : Arguments) : Bool :=
  lhs.entries.length == rhs.entries.length &&
    (List.zipWith (fun a b => a.1 == b.1 && a.2.sameValue b.2) lhs.entries rhs.entries).all id

end Arguments
end NetImport
