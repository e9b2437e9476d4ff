import NetImport.Proofs.Wire.Messages
import Mathlib.Data.List.Forall2

/-!
# What the wire form keeps of a net

A net comes back from its wire form as it was, but for two things that the form cannot tell
apart: an empty list of fractions or of texts is an empty list, and an empty operator name is
no name.  A net that was read has neither, so it comes back as it was, and writing it again
gives the same bytes.
-/

namespace NetImport

/-! ## Tables of arguments -/

namespace Arguments

variable {name : String} {value : ArgValue} {entries : List (String × ArgValue)}

theorem insertEntry_of_forall_lt (hbefore : ∀ entry ∈ entries, entry.1 < name) :
    insertEntry name value entries = entries ++ [(name, value)] := by
  induction entries with
  | nil => rfl
  | cons entry entries ih =>
      obtain ⟨hentry, hentries⟩ := List.forall_mem_cons.mp hbefore
      have hnotBefore : ¬ name < entry.1 := String.lt_asymm hentry
      have hother : name ≠ entry.1 := fun hname => String.lt_irrefl _ (hname ▸ hentry)
      rw [insertEntry, if_neg hnotBefore, if_neg hother, ih hentries, List.cons_append]

theorem entries_foldl_insert {table : Arguments}
    (hascending : AscendingNames (table.entries ++ entries)) :
    (entries.foldl (fun arguments entry => arguments.insert entry.1 entry.2) table).entries =
      table.entries ++ entries := by
  induction entries generalizing table with
  | nil => rw [List.foldl_nil, List.append_nil]
  | cons entry entries ih =>
      have hbefore : ∀ other ∈ table.entries, other.1 < entry.1 := fun other hother =>
        (List.pairwise_append.mp hascending).2.2 other hother entry (List.mem_cons_self ..)
      have hinsert : (table.insert entry.1 entry.2).entries = table.entries ++ [entry] :=
        insertEntry_of_forall_lt hbefore
      rw [List.append_cons, ← hinsert] at hascending ⊢
      exact ih hascending

theorem eq_of_entries {table other : Arguments} (hentries : table.entries = other.entries) :
    table = other := by
  cases table
  cases other
  cases hentries
  rfl

/-- A table is the table of its entries. -/
theorem ofList_entries (table : Arguments) : ofList table.entries = table :=
  eq_of_entries (entries_foldl_insert table.ascending)

theorem mem_of_mem_foldl_insert {table : Arguments} {entry : String × ArgValue}
    (hentry : entry ∈
      (entries.foldl (fun arguments entry => arguments.insert entry.1 entry.2) table).entries) :
    entry ∈ table.entries ∨ entry ∈ entries := by
  induction entries generalizing table with
  | nil => exact .inl hentry
  | cons first entries ih =>
      rcases ih hentry with hinserted | hlater
      · rcases mem_insertEntry hinserted with rfl | hold
        · exact .inr (List.mem_cons_self ..)
        · exact .inl hold
      · exact .inr (List.mem_cons_of_mem first hlater)

theorem mem_of_mem_ofList {entry : String × ArgValue} (hentry : entry ∈ (ofList entries).entries) :
    entry ∈ entries :=
  (mem_of_mem_foldl_insert hentry).resolve_left (List.not_mem_nil)

theorem find?_insertEntry (name other : String) (value : ArgValue)
    (entries : List (String × ArgValue)) :
    (insertEntry name value entries).find? (fun entry => entry.1 = other) =
      if name = other then some (name, value)
      else entries.find? fun entry => entry.1 = other := by
  induction entries with
  | nil => by_cases hname : name = other <;> simp [insertEntry, hname]
  | cons entry entries ih =>
      unfold insertEntry
      grind

theorem get?_insert (table : Arguments) (name other : String) (value : ArgValue) :
    (table.insert name value).get? other =
      if name = other then some value else table.get? other := by
  rw [get?, insert, find?_insertEntry]
  split
  · rfl
  · rfl

theorem get?_foldl_insert (table : Arguments) (entries : List (String × ArgValue))
    (name : String) :
    (entries.foldl (fun arguments entry => arguments.insert entry.1 entry.2) table).get? name =
      ((entries.reverse.find? fun entry => entry.1 = name).map Prod.snd).or
        (table.get? name) := by
  induction entries generalizing table with
  | nil => rfl
  | cons entry entries ih =>
      rw [List.foldl_cons, ih, get?_insert, List.reverse_cons, List.find?_append]
      cases entries.reverse.find? fun entry => entry.1 = name with
      | some found => rfl
      | none => by_cases hname : entry.1 = name <;> simp [hname]

/-- Of entries of one name the last counts. -/
theorem get?_ofList (entries : List (String × ArgValue)) (name : String) :
    (ofList entries).get? name =
      (entries.reverse.find? fun entry => entry.1 = name).map Prod.snd := by
  rw [ofList, get?_foldl_insert]
  exact Option.or_none

end Arguments

/-! ## What the wire form keeps -/

/-- Lists without items are lists of whole numbers. -/
def ArgValue.canonical : ArgValue → ArgValue
  | .floats [] => .ints []
  | .texts [] => .ints []
  | value => value

def Arguments.canonical (table : Arguments) : Arguments where
  entries := table.entries.map fun entry => (entry.1, entry.2.canonical)
  ascending := by
    rw [AscendingNames, List.pairwise_map]
    exact table.ascending

/-- No operator has an empty name. -/
def Operator.canonical (op : Operator) : Operator :=
  { op with name? := op.name?.filter fun name => name != "", args := op.args.canonical }

def NetDefinition.canonical (net : NetDefinition) : NetDefinition :=
  { net with operators := net.operators.map Operator.canonical }

theorem decodeTolerantly_encode (text : String) :
    Utf8.decodeTolerantly (Utf8.encode text) = text := by
  rw [Utf8.decodeTolerantly, Utf8.decode?_encode, Option.getD_some]

theorem ArgumentMessage.entry_ofEntry (entry : String × ArgValue) :
    (ofEntry entry).entry = (entry.1, entry.2.canonical) := by
  obtain ⟨name, argument⟩ := entry
  cases argument with
  | int i => rfl
  | float x => rfl
  | text text =>
      exact congrArg (fun text => (name, ArgValue.text text)) (decodeTolerantly_encode text)
  | ints values => rfl
  | floats values => cases values <;> rfl
  | texts values =>
      cases values with
      | nil => rfl
      | cons first values =>
          simp [ofEntry, ArgumentMessage.entry, value, empty, ArgValue.canonical,
            Function.comp_def, decodeTolerantly_encode]

theorem OperatorMessage.toOperator_ofOperator (op : Operator) :
    (ofOperator op).toOperator = op.canonical := by
  have hargs : Arguments.ofList ((ofOperator op).args.map ArgumentMessage.entry) =
      op.args.canonical := by
    rw [ofOperator, List.map_map, ← Arguments.ofList_entries op.args.canonical]
    exact congrArg Arguments.ofList
      (List.map_congr_left fun entry _ => ArgumentMessage.entry_ofEntry entry)
  rw [toOperator, hargs]
  rfl

theorem NetMessage.toDefinition_ofDefinition (net : NetDefinition) :
    (ofDefinition net).toDefinition = net.canonical := by
  have hoperators : (ofDefinition net).operators.map OperatorMessage.toOperator =
      net.operators.map Operator.canonical := by
    rw [ofDefinition, List.map_map]
    exact List.map_congr_left fun op _ => OperatorMessage.toOperator_ofOperator op
  rw [toDefinition, hoperators]
  rfl

/-- A net comes back from its wire form, up to what the form does not tell apart. -/
theorem NetDefinition.ofWire?_toWire_eq {net : NetDefinition}
    (hlength : net.toWire.length < UInt64.size) :
    ofWire? net.toWire = some net.canonical := by
  have hdecode := NetMessage.decode?_encode hlength
  rw [ofWire?, toWire, hdecode, Option.map_some, NetMessage.toDefinition_ofDefinition]

/-! ## Nets that were read -/

theorem ArgumentMessage.canonical_value (message : ArgumentMessage) :
    message.value.canonical = message.value := by
  unfold value
  split
  · rfl
  · rfl
  · rfl
  · split
    · next hfloats =>
        cases hlist : message.floats with
        | nil => exact absurd hlist hfloats
        | cons first floats => rfl
    · split
      · next hbyteLists =>
          cases hlist : message.byteLists with
          | nil => exact absurd hlist hbyteLists
          | cons first byteLists => rfl
      · rfl

theorem OperatorMessage.canonical_toOperator (message : OperatorMessage) :
    message.toOperator.canonical = message.toOperator := by
  have hname : message.toOperator.name?.filter (fun name => name != "") =
      message.toOperator.name? := by
    simp [toOperator, Option.filter_filter]
  have hargs : message.toOperator.args.canonical = message.toOperator.args := by
    refine Arguments.eq_of_entries ((List.map_congr_left fun entry hentry => ?_).trans
      (List.map_id _))
    obtain ⟨arg, -, rfl⟩ := List.mem_map.mp (Arguments.mem_of_mem_ofList hentry)
    exact congrArg (Prod.mk _) arg.canonical_value
  rw [Operator.canonical, hname, hargs]

theorem NetMessage.canonical_toDefinition (message : NetMessage) :
    message.toDefinition.canonical = message.toDefinition := by
  have hoperators : message.toDefinition.operators.map Operator.canonical =
      message.toDefinition.operators := by
    rw [toDefinition, List.map_map]
    exact List.map_congr_left fun op _ => op.canonical_toOperator
  rw [NetDefinition.canonical, hoperators]

/-- Of the arguments of one name the last counts. -/
theorem OperatorMessage.get?_args (message : OperatorMessage) (name : String) :
    message.toOperator.args.get? name =
      (message.args.reverse.find? fun arg => arg.entry.1 = name).map ArgumentMessage.value := by
  rw [toOperator, Arguments.get?_ofList, ← List.map_reverse, List.find?_map, Option.map_map]
  rfl

/-- A net comes back from its wire form canonical.  One that was read from any bytes, in which
the last of the arguments of one name counts, comes back as it was, so that its wire form is
written again byte for byte.  The length of a wire form must be a number of 64 bits, as that
of any byte string in memory is. -/
theorem wire_form_is_canonical :
    (∀ net : NetDefinition, net.toWire.length < UInt64.size →
      NetDefinition.ofWire? net.toWire = some net.canonical) ∧
    ∀ (bytes : List UInt8) (net : NetDefinition), NetDefinition.ofWire? bytes = some net →
      (∃ message, NetMessage.decode? bytes = some message ∧
        List.Forall₂ (fun (declared : OperatorMessage) (op : Operator) => ∀ name,
          op.args.get? name =
            (declared.args.reverse.find? fun arg => arg.entry.1 = name).map
              ArgumentMessage.value) message.operators net.operators) ∧
      (net.toWire.length < UInt64.size →
        NetDefinition.ofWire? net.toWire = some net ∧
        (NetDefinition.ofWire? net.toWire).map NetDefinition.toWire = some net.toWire) := by
  refine ⟨fun net hlength => net.ofWire?_toWire_eq hlength, fun bytes net hread => ?_⟩
  obtain ⟨message, hdecode, rfl⟩ := Option.map_eq_some_iff.mp hread
  refine ⟨⟨message, hdecode, ?_⟩, fun hlength => ?_⟩
  · rw [NetMessage.toDefinition, List.forall₂_map_right_iff, List.forall₂_same]
    exact fun op _ => op.get?_args
  · have hwire := NetDefinition.ofWire?_toWire_eq hlength
    rw [message.canonical_toDefinition] at hwire
    exact ⟨hwire, by rw [hwire, Option.map_some]⟩

/-- A net with an empty name and an empty list of fractions. -/
def looseNet : NetDefinition where
  name := "loose"
  operators := [⟨"Clip", ["x"], ["y"], some "",
    ⟨[("bounds", .floats [])], List.pairwise_singleton _ _⟩⟩]
  externalInputs := ["x"]
  externalOutputs := ["y"]

/-- A message in which an argument is given twice. -/
def repeatingMessage : NetMessage where
  name? := none
  operators := [⟨["x"], ["y"], none, some "Softmax",
    [{ ArgumentMessage.empty with name? := some "axis", int? := some 1 },
      { ArgumentMessage.empty with name? := some "axis", int? := some (-1) }]⟩]
  externalInputs := ["x"]
  externalOutputs := ["y"]

theorem looseNet_and_repeatingMessage_wire_forms :
    (NetDefinition.ofWire? looseNet.toWire = some looseNet.canonical ∧
      looseNet.canonical.operators.map (fun op => (op.name?, op.args.get? "bounds")) =
        [(none, some (.ints []))]) ∧
    ∃ net, NetDefinition.ofWire? repeatingMessage.encode = some net ∧
      net.operators.map (fun op => op.args.get? "axis") = [some (.int (-1))] ∧
      NetDefinition.ofWire? net.toWire = some net := by
  have hread : NetDefinition.ofWire? repeatingMessage.encode =
      some repeatingMessage.toDefinition := by
    have hlength : repeatingMessage.encode.length < UInt64.size := by decide +kernel
    have hdecode := NetMessage.decode?_encode hlength
    rw [NetDefinition.ofWire?, hdecode, Option.map_some]
  have hrewritten := (wire_form_is_canonical.2 _ _ hread).2 (by decide +kernel)
  exact ⟨⟨wire_form_is_canonical.1 looseNet (by decide +kernel), by decide +kernel⟩,
    _, hread, by decide +kernel, hrewritten.1⟩

end NetImport
