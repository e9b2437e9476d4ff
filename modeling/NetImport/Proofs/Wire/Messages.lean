import NetImport.Proofs.Sequencing
import NetImport.Proofs.Wire.Fields
import NetImport.Wire.Codec

/-!
# Reading undoes writing, message by message

A message is written as the list of its fields, number by number.  The fields of one number
are read without regard to the others, so each part of a message comes back as it was.
-/

namespace NetImport
namespace Wire

/-! ## Payloads -/

namespace Payload

def ofText (text : String) : Payload := .delimited (Utf8.encode text)

def ofSingle (x : RawSingle) : Payload := .fixed32 (bytesOfSingle x)

def ofInt (i : Int64) : Payload := .varint (natOfInt i)

theorem wellFormed_ofText (text : String) : (ofText text).WellFormed := trivial

theorem wellFormed_ofSingle (x : RawSingle) : (ofSingle x).WellFormed := rfl

theorem wellFormed_ofInt (i : Int64) : (ofInt i).WellFormed := i.toUInt64.toNat_lt

theorem wellFormed_delimited (bytes : List UInt8) : (delimited bytes).WellFormed := trivial

@[simp] theorem asText?_ofText (text : String) : (ofText text).asText? = some text :=
  Utf8.decode?_encode text

@[simp] theorem asBytes?_delimited (bytes : List UInt8) :
    (delimited bytes).asBytes? = some bytes :=
  rfl

theorem singleOfBytes_bytesOfSingle (x : RawSingle) : singleOfBytes (bytesOfSingle x) = x := by
  have hbits := x.bits.toNat_lt
  have hvalue : x.bits.toNat % 256 + 256 * (x.bits.toNat / 256 % 256 +
      256 * (x.bits.toNat / 65536 % 256 + 256 * (x.bits.toNat / 16777216 % 256))) =
      x.bits.toNat := by
    omega
  rcases x with ⟨bits⟩
  simpa [singleOfBytes, bytesOfSingle] using congrArg Nat.toUInt32 hvalue

@[simp] theorem asSingle?_ofSingle (x : RawSingle) : (ofSingle x).asSingle? = some x :=
  congrArg some (singleOfBytes_bytesOfSingle x)

@[simp] theorem asSingles?_ofSingle (x : RawSingle) : (ofSingle x).asSingles? = some [x] :=
  congrArg (Option.map ([·])) (asSingle?_ofSingle x)

theorem intOfNat_natOfInt (i : Int64) : intOfNat (natOfInt i) = i := by
  simp [intOfNat, natOfInt]

@[simp] theorem asInt?_ofInt (i : Int64) : (ofInt i).asInt? = some i :=
  congrArg some (intOfNat_natOfInt i)

@[simp] theorem asInts?_ofInt (i : Int64) : (ofInt i).asInts? = some [i] :=
  congrArg (Option.map ([·])) (asInt?_ofInt i)

end Payload

/-! ## The fields of one number -/

/-- Fields of one number. -/
def fieldsOf (number : Nat) (payloads : List Payload) : List Field :=
  payloads.map (Field.mk number)

@[simp] theorem payloads_fieldsOf (number other : Nat) (given : List Payload) :
    payloads number (fieldsOf other given) = if other = number then given else [] := by
  by_cases hnumber : other = number
  · rw [if_pos hnumber, payloads, fieldsOf, List.filterMap_map]
    have hkept : ((fun field : Field =>
        if field.number = number then some field.payload else none) ∘ Field.mk other) = some :=
      funext fun _ => if_pos hnumber
    rw [hkept, List.filterMap_some]
  · simp [fieldsOf, payloads, hnumber]

@[simp] theorem payloads_append (number : Nat) (fields fields' : List Field) :
    payloads number (fields ++ fields') = payloads number fields ++ payloads number fields' :=
  List.filterMap_append ..

section

variable {α β : Type} {number : Nat} {fields : List Field} {read : Payload → Option β}
  {write : α → Payload} {view : α → β}

theorem encode_fieldsOf (number : Nat) (write : α → Payload) (xs : List α) :
    (fieldsOf number (xs.map write)).flatMap Field.encode =
      xs.flatMap fun x => Field.encode ⟨number, write x⟩ := by
  rw [fieldsOf, List.map_map, List.flatMap_map]
  rfl

theorem wellFormed_fieldsOf (hnumber : ValidNumber number)
    (hwrite : ∀ x, (write x).WellFormed) (xs : List α) :
    ∀ field ∈ fieldsOf number (xs.map write), field.WellFormed := by
  intro field hfield
  obtain ⟨payload, hpayload, rfl⟩ := List.mem_map.mp hfield
  obtain ⟨x, -, rfl⟩ := List.mem_map.mp hpayload
  exact ⟨hnumber, hwrite x⟩

/-- Items that are read one by one are read all together. -/
theorem all?_eq_some {xs : List α} (hpayloads : payloads number fields = xs.map write)
    (hread : ∀ x ∈ xs, read (write x) = some (view x)) :
    all? read number fields = some (xs.map view) := by
  rw [all?, hpayloads, List.mapM_map]
  exact mapM_eq_some_map hread

theorem last?_eq_some {x? : Option α} (hpayloads : payloads number fields = x?.toList.map write)
    (hread : ∀ x ∈ x?, read (write x) = some (view x)) :
    last? read number fields = some (x?.map view) := by
  have hall := all?_eq_some hpayloads fun x hx => hread x (Option.mem_toList.mp hx)
  rw [last?, ← all?, hall]
  cases x? <;> rfl

end

end Wire

open Wire

/-! ## Messages as lists of fields -/

namespace ArgumentMessage

def fields (message : ArgumentMessage) : List Field :=
  fieldsOf 1 (message.name?.toList.map .ofText) ++
    fieldsOf 2 (message.float?.toList.map .ofSingle) ++
    fieldsOf 3 (message.int?.toList.map .ofInt) ++
    fieldsOf 4 (message.bytes?.toList.map .delimited) ++
    fieldsOf 5 (message.floats.map .ofSingle) ++
    fieldsOf 6 (message.ints.map .ofInt) ++
    fieldsOf 7 (message.byteLists.map .delimited)

theorem encode_eq (message : ArgumentMessage) :
    message.encode = message.fields.flatMap Field.encode := by
  simp only [fields, List.flatMap_append, encode_fieldsOf]
  rfl

theorem wellFormed_fields (message : ArgumentMessage) :
    ∀ field ∈ message.fields, field.WellFormed := by
  simp only [fields, List.forall_mem_append]
  refine ⟨⟨⟨⟨⟨⟨?_, ?_⟩, ?_⟩, ?_⟩, ?_⟩, ?_⟩, ?_⟩
  · exact wellFormed_fieldsOf (by decide) Payload.wellFormed_ofText _
  · exact wellFormed_fieldsOf (by decide) Payload.wellFormed_ofSingle _
  · exact wellFormed_fieldsOf (by decide) Payload.wellFormed_ofInt _
  · exact wellFormed_fieldsOf (by decide) Payload.wellFormed_delimited _
  · exact wellFormed_fieldsOf (by decide) Payload.wellFormed_ofSingle _
  · exact wellFormed_fieldsOf (by decide) Payload.wellFormed_ofInt _
  · exact wellFormed_fieldsOf (by decide) Payload.wellFormed_delimited _

theorem ofFields?_fields (message : ArgumentMessage) :
    ofFields? message.fields = some message := by
  have hname : last? Payload.asText? 1 message.fields = some (message.name?.map id) :=
    last?_eq_some (by simp [fields]) fun x _ => Payload.asText?_ofText x
  have hfloat : last? Payload.asSingle? 2 message.fields = some (message.float?.map id) :=
    last?_eq_some (by simp [fields]) fun x _ => Payload.asSingle?_ofSingle x
  have hint : last? Payload.asInt? 3 message.fields = some (message.int?.map id) :=
    last?_eq_some (by simp [fields]) fun i _ => Payload.asInt?_ofInt i
  have hbytes : last? Payload.asBytes? 4 message.fields = some (message.bytes?.map id) :=
    last?_eq_some (by simp [fields]) fun bytes _ => Payload.asBytes?_delimited bytes
  have hfloats : all? Payload.asSingles? 5 message.fields =
      some (message.floats.map fun x => [x]) :=
    all?_eq_some (by simp [fields]) fun x _ => Payload.asSingles?_ofSingle x
  have hints : all? Payload.asInts? 6 message.fields = some (message.ints.map fun i => [i]) :=
    all?_eq_some (by simp [fields]) fun i _ => Payload.asInts?_ofInt i
  have hbyteLists : all? Payload.asBytes? 7 message.fields = some (message.byteLists.map id) :=
    all?_eq_some (by simp [fields]) fun bytes _ => Payload.asBytes?_delimited bytes
  simp [ofFields?, hname, hfloat, hint, hbytes, hfloats, hints, hbyteLists,
    ← List.flatMap_def]

end ArgumentMessage

namespace OperatorMessage

def fields (message : OperatorMessage) : List Field :=
  fieldsOf 1 (message.inputs.map .ofText) ++ fieldsOf 2 (message.outputs.map .ofText) ++
    fieldsOf 3 (message.name?.toList.map .ofText) ++
    fieldsOf 4 (message.kind?.toList.map .ofText) ++
    fieldsOf 5 (message.args.map fun arg => .delimited arg.encode)

theorem encode_eq (message : OperatorMessage) :
    message.encode = message.fields.flatMap Field.encode := by
  simp only [fields, List.flatMap_append, encode_fieldsOf]
  rfl

theorem wellFormed_fields (message : OperatorMessage) :
    ∀ field ∈ message.fields, field.WellFormed := by
  simp only [fields, List.forall_mem_append]
  refine ⟨⟨⟨⟨?_, ?_⟩, ?_⟩, ?_⟩, ?_⟩
  · exact wellFormed_fieldsOf (by decide) Payload.wellFormed_ofText _
  · exact wellFormed_fieldsOf (by decide) Payload.wellFormed_ofText _
  · exact wellFormed_fieldsOf (by decide) Payload.wellFormed_ofText _
  · exact wellFormed_fieldsOf (by decide) Payload.wellFormed_ofText _
  · exact wellFormed_fieldsOf (by decide) (fun arg => Payload.wellFormed_delimited _) _

theorem argument?_encode {arg : ArgumentMessage} (hlength : arg.encode.length < UInt64.size) :
    argument? (.delimited arg.encode) = some arg := by
  rw [ArgumentMessage.encode_eq] at hlength ⊢
  have hread : readFields? (deepest - 2) (arg.fields.flatMap Field.encode) = some arg.fields :=
    readFields?_encode arg.wellFormed_fields hlength
  simp [argument?, Payload.asBytes?, hread, arg.ofFields?_fields]

theorem ofFields?_fields (message : OperatorMessage)
    (hargs : ∀ arg ∈ message.args, arg.encode.length < UInt64.size) :
    ofFields? message.fields = some message := by
  have hinputs : all? Payload.asText? 1 message.fields = some (message.inputs.map id) :=
    all?_eq_some (by simp [fields]) fun text _ => Payload.asText?_ofText text
  have houtputs : all? Payload.asText? 2 message.fields = some (message.outputs.map id) :=
    all?_eq_some (by simp [fields]) fun text _ => Payload.asText?_ofText text
  have hname : last? Payload.asText? 3 message.fields = some (message.name?.map id) :=
    last?_eq_some (by simp [fields]) fun text _ => Payload.asText?_ofText text
  have hkind : last? Payload.asText? 4 message.fields = some (message.kind?.map id) :=
    last?_eq_some (by simp [fields]) fun text _ => Payload.asText?_ofText text
  have hread : all? argument? 5 message.fields = some (message.args.map id) :=
    all?_eq_some (by simp [fields]) fun arg harg => argument?_encode (hargs arg harg)
  simp [ofFields?, hinputs, houtputs, hname, hkind, hread]

theorem length_encode_arg {message : OperatorMessage} {arg : ArgumentMessage}
    (harg : arg ∈ message.args) :
    arg.encode.length ≤ message.encode.length := by
  rw [encode_eq]
  have hmem : ⟨5, .delimited arg.encode⟩ ∈ message.fields := by
    simp only [fields, fieldsOf, List.mem_append, List.mem_map]
    exact .inr ⟨_, ⟨arg, harg, rfl⟩, rfl⟩
  exact Field.length_le_of_mem hmem

end OperatorMessage

namespace NetMessage

def fields (message : NetMessage) : List Field :=
  fieldsOf 1 (message.name?.toList.map .ofText) ++
    fieldsOf 2 (message.operators.map fun op => .delimited op.encode) ++
    fieldsOf 7 (message.externalInputs.map .ofText) ++
    fieldsOf 8 (message.externalOutputs.map .ofText)

theorem encode_eq (message : NetMessage) :
    message.encode = message.fields.flatMap Field.encode := by
  simp only [fields, List.flatMap_append, encode_fieldsOf]
  rfl

theorem wellFormed_fields (message : NetMessage) :
    ∀ field ∈ message.fields, field.WellFormed := by
  simp only [fields, List.forall_mem_append]
  refine ⟨⟨⟨?_, ?_⟩, ?_⟩, ?_⟩
  · exact wellFormed_fieldsOf (by decide) Payload.wellFormed_ofText _
  · exact wellFormed_fieldsOf (by decide) (fun op => Payload.wellFormed_delimited _) _
  · exact wellFormed_fieldsOf (by decide) Payload.wellFormed_ofText _
  · exact wellFormed_fieldsOf (by decide) Payload.wellFormed_ofText _

theorem operator?_encode {op : OperatorMessage} (hlength : op.encode.length < UInt64.size) :
    operator? (.delimited op.encode) = some op := by
  have hargs : ∀ arg ∈ op.args, arg.encode.length < UInt64.size := fun arg harg =>
    Nat.lt_of_le_of_lt (OperatorMessage.length_encode_arg harg) hlength
  rw [OperatorMessage.encode_eq] at hlength ⊢
  have hread : readFields? (deepest - 1) (op.fields.flatMap Field.encode) = some op.fields :=
    readFields?_encode op.wellFormed_fields hlength
  simp [operator?, hread, op.ofFields?_fields hargs]

theorem ofFields?_fields (message : NetMessage)
    (hoperators : ∀ op ∈ message.operators, op.encode.length < UInt64.size) :
    ofFields? message.fields = some message := by
  have hname : last? Payload.asText? 1 message.fields = some (message.name?.map id) :=
    last?_eq_some (by simp [fields]) fun text _ => Payload.asText?_ofText text
  have hread : all? operator? 2 message.fields = some (message.operators.map id) :=
    all?_eq_some (by simp [fields]) fun op hop => operator?_encode (hoperators op hop)
  have hinputs : all? Payload.asText? 7 message.fields = some (message.externalInputs.map id) :=
    all?_eq_some (by simp [fields]) fun text _ => Payload.asText?_ofText text
  have houtputs : all? Payload.asText? 8 message.fields =
      some (message.externalOutputs.map id) :=
    all?_eq_some (by simp [fields]) fun text _ => Payload.asText?_ofText text
  simp [ofFields?, hname, hread, hinputs, houtputs]

theorem length_encode_operator {message : NetMessage} {op : OperatorMessage}
    (hop : op ∈ message.operators) :
    op.encode.length ≤ message.encode.length := by
  rw [encode_eq]
  have hmem : ⟨2, .delimited op.encode⟩ ∈ message.fields := by
    simp only [fields, fieldsOf, List.mem_append, List.mem_map]
    exact .inl (.inl (.inr ⟨_, ⟨op, hop, rfl⟩, rfl⟩))
  exact Field.length_le_of_mem hmem

/-- A message that fits into memory is read as it was written. -/
theorem decode?_encode {message : NetMessage} (hlength : message.encode.length < UInt64.size) :
    decode? message.encode = some message := by
  have hoperators : ∀ op ∈ message.operators, op.encode.length < UInt64.size := fun op hop =>
    Nat.lt_of_le_of_lt (length_encode_operator hop) hlength
  rw [encode_eq] at hlength ⊢
  have hread : readFields? deepest (message.fields.flatMap Field.encode) = some message.fields :=
    readFields?_encode message.wellFormed_fields hlength
  simp [decode?, hread, message.ofFields?_fields hoperators]

end NetMessage
end NetImport
