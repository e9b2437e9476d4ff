import NetImport.Proofs.Json.Documents
import NetImport.Proofs.Net.Canonical
import NetImport.Proofs.Net.SingleNumerals
import NetImport.Proofs.Sequencing

/-!
# What the JSON form keeps of a net

A value is written without its kind and read as the first kind that fits, so the kinds must not
fit one another: a fraction is never written as a whole number, and only lists without items
look alike.  A net comes back with every such list a list of whole numbers.  A number that is
not finite is written as null, which no kind of argument reads.
-/

namespace NetImport
namespace NetJson

/-! ## Items -/

@[simp] theorem text?_ofString (text : String) : text? (.ofString text) = some text :=
  JsonText.decode?_encode text

theorem int?_ofInt (i : Int64) : int? (.ofInt i.toInt) = some i := by
  have hrange : i.toInt ∈ IntRange.signed64 :=
    IntRange.mem_iff.mpr ⟨i.le_toInt, Int.le_of_lt_add_one i.toInt_lt⟩
  simp only [int?, Json.ofInt, JsonNumeral.reading?_ofInt hrange, if_pos hrange, Int64.ofInt_toInt]

/-- No number of the 32-bit format is written as a whole number. -/
theorem int?_ofSingle (x : RawSingle) : int? (ofSingle x) = none := by
  by_cases hx : x.IsFinite
  · obtain ⟨numeral, hnumeral, -, hreal⟩ := exists_ofSingle_eq hx
    rw [hnumeral, int?]
    split
    next i hreading => exact absurd hreading (JsonNumeral.reading?_ne_integer hreal i)
    next => rfl
  · rw [ofSingle_eq_null hx]
    rfl

theorem single?_ofSingle_eq_none {x : RawSingle} (hx : ¬ x.IsFinite) :
    single? (ofSingle x) = none := by
  rw [ofSingle_eq_null hx]
  rfl

theorem text?_ofSingle (x : RawSingle) : text? (ofSingle x) = none := by
  by_cases hx : x.IsFinite
  · obtain ⟨numeral, hnumeral, -⟩ := exists_ofSingle_eq hx
    rw [hnumeral]
    rfl
  · rw [ofSingle_eq_null hx]
    rfl

theorem list?_array {α β : Type} (read : Json → Option β) (write : α → Json) (values : List α) :
    list? read (.array (values.map write)) = values.mapM fun value => read (write value) :=
  List.mapM_map

@[simp] theorem list?_ofTexts (texts : List String) : list? text? (ofTexts texts) = some texts := by
  rw [ofTexts, list?_array, mapM_eq_some_map fun text _ => text?_ofString text, List.map_id']

end NetJson

/-! ## Arguments -/

/-- The numbers of the 32-bit format in an argument. -/
def ArgValue.singles : ArgValue → List RawSingle
  | .float x => [x]
  | .floats values => values
  | _ => []

/-- The numeral of a number is read as that number. -/
def RawSingle.ReadsBack (x : RawSingle) : Prop := NetJson.single? (NetJson.ofSingle x) = some x

namespace NetJson

/-- The readers before the one that fits refuse, which the first item of a list decides. -/
theorem argValue?_ofArgValue {argument : ArgValue} (hreads : ∀ x ∈ argument.singles, x.ReadsBack) :
    argValue? (ofArgValue argument) = some argument.canonical := by
  cases argument with
  | int i =>
      have hint := int?_ofInt i
      simp only [ofArgValue, argValue?, hint]
      rfl
  | float x =>
      have hsingle : single? (ofSingle x) = some x := hreads x (List.mem_singleton_self x)
      simp only [ofArgValue, argValue?, int?_ofSingle, hsingle]
      rfl
  | text text =>
      have htext := text?_ofString text
      simp only [ofArgValue, argValue?, htext]
      rfl
  | ints values =>
      have hints : list? int? (.array (values.map fun i => .ofInt i.toInt)) = some values := by
        rw [list?_array, mapM_eq_some_map fun i _ => int?_ofInt i, List.map_id']
      simp only [ofArgValue, argValue?, hints]
      rfl
  | floats values =>
      cases values with
      | nil => rfl
      | cons x others =>
          have hints : list? int? (.array ((x :: others).map ofSingle)) = none := by
            rw [list?_array]
            exact mapM_eq_none (List.mem_cons_self ..) (int?_ofSingle x)
          have hread : ∀ y ∈ x :: others, single? (ofSingle y) = some y := hreads
          have hsingles : list? single? (.array ((x :: others).map ofSingle)) =
              some (x :: others) := by
            rw [list?_array, mapM_eq_some_map hread, List.map_id']
          simp only [ofArgValue, argValue?, hints, hsingles]
          rfl
  | texts values =>
      -- Without items both readers of lists of numbers accept, and that of whole numbers is first.
      cases values with
      | nil => rfl
      | cons text others =>
          have htexts := list?_ofTexts (text :: others)
          have hints : list? int? (ofTexts (text :: others)) = none := rfl
          have hsingles : list? single? (ofTexts (text :: others)) = none := rfl
          simp only [ofArgValue, argValue?, htexts, hints, hsingles]
          rfl

/-- A number that is not finite spoils the argument that it stands in. -/
theorem argValue?_eq_none {argument : ArgValue} {x : RawSingle} (hmem : x ∈ argument.singles)
    (hx : ¬ x.IsFinite) : argValue? (ofArgValue argument) = none := by
  cases argument with
  | float y =>
      obtain rfl := List.mem_singleton.mp hmem
      rw [ofArgValue, ofSingle_eq_null hx]
      rfl
  | floats values =>
      have hlist : ∀ {α : Type} {read : Json → Option α}, read (ofSingle x) = none →
          list? read (.array (values.map ofSingle)) = none := by
        intro α read hread
        rw [list?_array]
        exact mapM_eq_none hmem hread
      simp only [ofArgValue, argValue?, hlist (int?_ofSingle x),
        hlist (single?_ofSingle_eq_none hx), hlist (text?_ofSingle x)]
      rfl
  | int => cases hmem
  | text => cases hmem
  | ints => cases hmem
  | texts => cases hmem

theorem members?_map_encode (members : List (String × Json)) :
    members? (members.map fun member => (JsonText.encode member.1, member.2)) = some members := by
  induction members with
  | nil => rfl
  | cons member members ih =>
      rw [List.map_cons, members?, JsonText.decode?_encode, ih]
      rfl

/-- The value of an argument table. -/
def ofArguments (table : Arguments) : Json :=
  .ofMembers (table.entries.map fun entry => (entry.1, ofArgValue entry.2))

/-- The entries of a table are read one by one. -/
theorem arguments?_ofArguments_eq (table : Arguments) :
    arguments? (ofArguments table) =
      (table.entries.mapM fun entry : String × ArgValue =>
        (argValue? (ofArgValue entry.2)).map (Prod.mk entry.1)).map Arguments.ofList := by
  have hmembers := members?_map_encode
    (table.entries.map fun entry => (entry.1, ofArgValue entry.2))
  have hentry : ∀ entry : String × ArgValue,
      (argValue? (ofArgValue entry.2) >>= fun value => pure (entry.1, value)) =
        (argValue? (ofArgValue entry.2)).map (Prod.mk entry.1) := by
    exact fun entry => bind_pure_comp ..
  rw [ofArguments, Json.ofMembers, arguments?, hmembers, Option.bind_eq_bind, Option.bind_some,
    List.mapM_map]
  simp only [Function.comp_def, hentry]
  exact bind_pure_comp ..

theorem arguments?_ofArguments {table : Arguments}
    (hentries : ∀ entry ∈ table.entries, ∀ x ∈ entry.2.singles, x.ReadsBack) :
    arguments? (ofArguments table) = some table.canonical := by
  have hread : ∀ entry ∈ table.entries, (argValue? (ofArgValue entry.2)).map (Prod.mk entry.1) =
      some (entry.1, entry.2.canonical) := by
    intro entry hentry
    rw [argValue?_ofArgValue (hentries entry hentry), Option.map_some]
  rw [arguments?_ofArguments_eq, mapM_eq_some_map hread, Option.map_some]
  exact congrArg some (Arguments.ofList_entries table.canonical)

theorem arguments?_eq_none {table : Arguments} {entry : String × ArgValue} {x : RawSingle}
    (hentry : entry ∈ table.entries) (hmem : x ∈ entry.2.singles) (hx : ¬ x.IsFinite) :
    arguments? (ofArguments table) = none := by
  have hread : (argValue? (ofArgValue entry.2)).map (Prod.mk entry.1) = none := by
    rw [argValue?_eq_none hmem hx, Option.map_none]
  rw [arguments?_ofArguments_eq, mapM_eq_none hentry hread, Option.map_none]

/-! ## Records -/

theorem filter_of_nodup_keys {members : List (String × Json)}
    (hkeys : (members.map Prod.fst).Nodup) (name : String) :
    (members.filter fun member => member.1 = name) =
      (members.lookup name).toList.map (Prod.mk name) := by
  induction members with
  | nil => rfl
  | cons member members ih =>
      obtain ⟨key, value⟩ := member
      obtain ⟨hfirst, hothers⟩ := List.nodup_cons.mp hkeys
      rw [List.filter_cons, List.lookup_cons, ih hothers]
      by_cases hname : key = name
      · subst hname
        have hlookup : members.lookup key = none := by
          rw [List.lookup_eq_none_iff]
          intro other hother
          rw [bne_iff_ne]
          rintro rfl
          exact hfirst (List.mem_map.mpr ⟨other, hother, rfl⟩)
        simp [hlookup]
      · have hother : (name == key) = false := beq_false_of_ne (Ne.symm hname)
        simp [hname, hother]

/-- Members whose keys differ are the fields of their names. -/
theorem fields?_ofMembers {members : List (String × Json)} (hkeys : (members.map Prod.fst).Nodup)
    (names : List String) :
    fields? names (.ofMembers members) = some (names.map fun name => members.lookup name) := by
  have hmembers := members?_map_encode members
  rw [Json.ofMembers, fields?, hmembers, Option.bind_eq_bind, Option.bind_some]
  apply mapM_eq_some_map
  intro name _
  rw [filter_of_nodup_keys hkeys]
  cases members.lookup name <;> rfl

theorem operator?_ofOperator (op : Operator) :
    operator? (ofOperator op) =
      (arguments? (ofArguments op.args)).map fun args => { op with args := args } := by
  obtain ⟨kind, inputs, outputs, name?, args⟩ := op
  have hfields : fields? operatorFields (ofOperator ⟨kind, inputs, outputs, name?, args⟩) =
      some [some (.ofString kind), some (ofTexts inputs), some (ofTexts outputs),
        name?.map Json.ofString, some (ofArguments args)] := by
    cases name? with
    | none =>
        have hkeys : ["type", "input", "output", "arg"].Nodup := by decide
        apply fields?_ofMembers
        exact hkeys
    | some name =>
        have hkeys : ["type", "input", "output", "name", "arg"].Nodup := by decide
        apply fields?_ofMembers
        exact hkeys
  have hname : orElse none nullableText? (name?.map Json.ofString) = some name? := by
    cases name? with
    | none => rfl
    | some name => exact congrArg (Option.map some) (text?_ofString name)
  rw [operator?, hfields, Option.bind_eq_bind, Option.bind_some]
  dsimp only
  rw [hname]
  simp only [text?_ofString, orElse, list?_ofTexts, Option.bind_eq_bind, Option.bind_some]
  exact (Option.map_eq_bind ..).symm

theorem net?_ofNet (net : NetDefinition) :
    net? (ofNet net) =
      (net.operators.mapM fun op => operator? (ofOperator op)).map
        fun operators => { net with operators := operators } := by
  obtain ⟨name, operators, externalInputs, externalOutputs⟩ := net
  have hkeys : netFields.Nodup := by decide
  have hfields : fields? netFields (ofNet ⟨name, operators, externalInputs, externalOutputs⟩) =
      some [some (.ofString name), some (.array (operators.map ofOperator)),
        some (ofTexts externalInputs), some (ofTexts externalOutputs)] := by
    apply fields?_ofMembers
    exact hkeys
  rw [net?, hfields, Option.bind_eq_bind, Option.bind_some]
  simp only [orElse, text?_ofString, list?_ofTexts, list?_array, Option.bind_eq_bind,
    Option.bind_some]
  exact (Option.map_eq_bind ..).symm

/-! ## Documents -/

theorem writable_ofTexts (texts : List String) : (ofTexts texts).Writable := by
  apply Json.Writable.array
  rw [List.forall_mem_map]
  exact fun text _ => .string text

theorem writable_ofSingle (x : RawSingle) : (ofSingle x).Writable := by
  by_cases hx : x.IsFinite
  · obtain ⟨numeral, hnumeral, hformed, -⟩ := exists_ofSingle_eq hx
    rw [hnumeral]
    exact .number hformed
  · rw [ofSingle_eq_null hx]
    exact .null

theorem writable_ofInt (i : Int) : (Json.ofInt i).Writable :=
  .number (JsonNumeral.wellFormed_ofInt i)

theorem writable_ofArgValue (argument : ArgValue) : (ofArgValue argument).Writable := by
  cases argument with
  | int i => exact writable_ofInt i.toInt
  | float x => exact writable_ofSingle x
  | text text => exact .string text
  | ints values =>
      apply Json.Writable.array
      rw [List.forall_mem_map]
      exact fun i _ => writable_ofInt i.toInt
  | floats values =>
      apply Json.Writable.array
      rw [List.forall_mem_map]
      exact fun x _ => writable_ofSingle x
  | texts values => exact writable_ofTexts values

theorem writable_ofMembers {members : List (String × Json)}
    (hvalues : ∀ member ∈ members, member.2.Writable) : (Json.ofMembers members).Writable := by
  apply Json.Writable.object
  · rw [List.forall_mem_map]
    exact fun member _ => ⟨member.1, rfl⟩
  · rw [List.forall_mem_map]
    exact hvalues

theorem writable_ofArguments (table : Arguments) : (ofArguments table).Writable := by
  apply writable_ofMembers
  rw [List.forall_mem_map]
  exact fun entry _ => writable_ofArgValue entry.2

theorem writable_ofOperator (op : Operator) : (ofOperator op).Writable := by
  apply writable_ofMembers
  rw [List.forall_mem_append, List.forall_mem_append, List.forall_mem_map]
  simp only [List.forall_mem_cons]
  exact ⟨⟨⟨.string op.kind, writable_ofTexts op.inputs, writable_ofTexts op.outputs, nofun⟩,
    fun name _ => .string name⟩, writable_ofArguments op.args, nofun⟩

theorem writable_ofNet (net : NetDefinition) : (ofNet net).Writable := by
  have hoperators : (Json.array (net.operators.map ofOperator)).Writable := by
    apply Json.Writable.array
    rw [List.forall_mem_map]
    exact fun op _ => writable_ofOperator op
  apply writable_ofMembers
  simp only [List.forall_mem_cons]
  exact ⟨.string net.name, hoperators, writable_ofTexts net.externalInputs,
    writable_ofTexts net.externalOutputs, nofun⟩

end NetJson

/-! ## Nets -/

def Operator.singles (op : Operator) : List RawSingle :=
  op.args.entries.flatMap fun entry => entry.2.singles

def NetDefinition.singles (net : NetDefinition) : List RawSingle :=
  net.operators.flatMap Operator.singles

/-- Unlike the wire form, the document keeps an empty name. -/
def Operator.jsonCanonical (op : Operator) : Operator := { op with args := op.args.canonical }

def NetDefinition.jsonCanonical (net : NetDefinition) : NetDefinition :=
  { net with operators := net.operators.map Operator.jsonCanonical }

namespace NetJson

theorem operator?_of_readsBack {op : Operator} (hreads : ∀ x ∈ op.singles, x.ReadsBack) :
    operator? (ofOperator op) = some op.jsonCanonical := by
  have hargs : arguments? (ofArguments op.args) = some op.args.canonical := by
    apply arguments?_ofArguments
    exact fun entry hentry x hx => hreads x (List.mem_flatMap.mpr ⟨entry, hentry, hx⟩)
  rw [operator?_ofOperator, hargs, Option.map_some]
  rfl

theorem operator?_eq_none {op : Operator} {x : RawSingle} (hmem : x ∈ op.singles)
    (hx : ¬ x.IsFinite) : operator? (ofOperator op) = none := by
  obtain ⟨entry, hentry, hvalue⟩ := List.mem_flatMap.mp hmem
  rw [operator?_ofOperator, arguments?_eq_none hentry hvalue hx, Option.map_none]

end NetJson

namespace NetDefinition

theorem ofJson?_toJson_eq (net : NetDefinition) :
    ofJson? (Utf8.encode net.toJson) = NetJson.net? (NetJson.ofNet net) := by
  rw [ofJson?, toJson, (NetJson.writable_ofNet net).parse?_prettyText, Option.bind_eq_bind,
    Option.bind_some]

end NetDefinition

/-- A net whose numbers are finite comes back from its document with every empty list a list of
whole numbers, and otherwise as it was.  A net with a number that is not finite has a document
that no net is read from.  The numerals of its numbers must be read as these numbers. -/
theorem json_form_is_canonical :
    (∀ net : NetDefinition, (∀ x ∈ net.singles, x.IsFinite → x.ReadsBack) →
      (∀ x ∈ net.singles, x.IsFinite) →
      NetDefinition.ofJson? (Utf8.encode net.toJson) = some net.jsonCanonical) ∧
    ∀ net : NetDefinition, (∃ x ∈ net.singles, ¬ x.IsFinite) →
      NetDefinition.ofJson? (Utf8.encode net.toJson) = none := by
  constructor
  · intro net hnumerals hfinite
    have hoperators : ∀ op ∈ net.operators,
        NetJson.operator? (NetJson.ofOperator op) = some op.jsonCanonical := by
      intro op hop
      apply NetJson.operator?_of_readsBack
      intro x hx
      have hmem : x ∈ net.singles := List.mem_flatMap.mpr ⟨op, hop, hx⟩
      exact hnumerals x hmem (hfinite x hmem)
    rw [net.ofJson?_toJson_eq, NetJson.net?_ofNet, mapM_eq_some_map hoperators, Option.map_some]
    rfl
  · intro net hsingle
    obtain ⟨x, hmem, hx⟩ := hsingle
    obtain ⟨op, hop, hvalue⟩ := List.mem_flatMap.mp hmem
    rw [net.ofJson?_toJson_eq, NetJson.net?_ofNet,
      mapM_eq_none hop (NetJson.operator?_eq_none hvalue hx), Option.map_none]

/-- A net with a tenth, lists without items and an operator with an empty name. -/
def tenthNet : NetDefinition where
  name := "tenth"
  operators := [⟨"Clip", ["x"], ["y"], some "",
    Arguments.ofList [("bounds", .floats []), ("labels", .texts []),
      ("max", .float ⟨0x3DCCCCCD⟩), ("steps", .floats [⟨0x3F800000⟩, ⟨0x80000000⟩])]⟩]
  externalInputs := ["x"]
  externalOutputs := ["y"]

def unboundedNet : NetDefinition where
  name := "unbounded"
  operators := [⟨"Clip", ["x"], ["y"], none, Arguments.ofList [("max", .float ⟨0x7F800000⟩)]⟩]
  externalInputs := ["x"]
  externalOutputs := ["y"]

theorem tenthNet_and_unboundedNet_documents :
    (NetDefinition.ofJson? (Utf8.encode tenthNet.toJson) = some tenthNet.jsonCanonical ∧
      tenthNet.jsonCanonical.operators.map (fun op => (op.name?, op.args.entries)) =
        [(some "", [("bounds", .ints []), ("labels", .ints []), ("max", .float ⟨0x3DCCCCCD⟩),
          ("steps", .floats [⟨0x3F800000⟩, ⟨0x80000000⟩])])]) ∧
    NetDefinition.ofJson? (Utf8.encode unboundedNet.toJson) = none := by
  have hsingles : tenthNet.singles = [⟨0x3DCCCCCD⟩, ⟨0x3F800000⟩, ⟨0x80000000⟩] := by decide +kernel
  have hnumerals : ∀ x ∈ tenthNet.singles, x.IsFinite → x.ReadsBack := by
    unfold RawSingle.ReadsBack
    decide +kernel
  have hfinite : ∀ x ∈ tenthNet.singles, x.IsFinite := by decide +kernel
  have hinfinite : ∃ x ∈ unboundedNet.singles, ¬ x.IsFinite := by decide +kernel
  exact ⟨⟨json_form_is_canonical.1 tenthNet hnumerals hfinite, by decide +kernel⟩,
    json_form_is_canonical.2 unboundedNet hinfinite⟩

end NetImport
