import NetImport.Model.Words
import NetImport.Proofs.Model.Tables
import NetImport.Proofs.Tensor.Words

/-!
# Weights in words

Where the elements that each operator asks for can be counted in a word, an init net has the same
table in words as without, and is refused for the same reason.
-/

namespace NetImport

open InPlace (Storage)

variable {bits : Nat} {op : Operator} {dtype : DType}

namespace Fill

theorem count_lt_of_requiredShape (hwords : FitsWords bits op) {shape : Shape}
    (hshape : requiredShape op = .ok shape) : shape.count < twoPow bits := by
  obtain ⟨found, hfound, hrest⟩ := bind_eq_ok_iff.mp hshape
  cases found with
  | none => cases hrest
  | some dims =>
      obtain rfl := pure_eq_ok_iff.mp hrest
      exact hwords (some dims) hfound

theorem listedInWords_eq (hwords : FitsWords bits op) (data : List dtype.Element) :
    listedInWords bits op dtype data = Tensor.storage <$> listed op dtype data := by
  rw [listedInWords, listed, map_bind]
  refine bind_congr_ok fun shape hshape => ?_
  have hcount : shape.countInWords bits = shape.count :=
    productInWords_eq (count_lt_of_requiredShape hwords hshape)
  rw [hcount]
  split <;> rfl

theorem listedIntsInWords_eq (hwords : FitsWords bits op) :
    listedIntsInWords bits op dtype = Tensor.storage <$> listedInts op dtype := by
  simp only [listedIntsInWords, listedInts, map_bind, listedInWords_eq hwords]

theorem uniformInWords_eq {shape : Shape} (hcount : shape.count < twoPow bits) :
    uniformInWords bits op shape dtype = Tensor.storage <$> uniform op shape dtype := by
  have hcount : shape.countInWords bits = shape.count := productInWords_eq hcount
  unfold uniformInWords uniform
  rw [hcount]
  split <;> simp only [map_bind] <;> rfl

/-- An operator fills the same tensor in words as without, or is refused alike. -/
theorem tensorInWords_eq (hwords : FitsWords bits op) :
    tensorInWords bits op = Tensor.storage <$> Fill.tensor op := by
  unfold tensorInWords
  split
  · next hkind =>
      simp only [Fill.tensor, hkind, map_bind]
      refine bind_congr_ok fun found _ => ?_
      cases found with
      | none => rfl
      | some values => exact @listedInWords_eq _ _ .f32 hwords values
  · next hkind =>
      simp only [Fill.tensor, hkind]
      exact listedIntsInWords_eq hwords
  · next hkind =>
      simp only [Fill.tensor, hkind]
      exact listedIntsInWords_eq hwords
  · next hkind => simp only [Fill.tensor, hkind, map_bind, listedInWords_eq hwords]
  · next hkind =>
      simp only [Fill.tensor, hkind, map_bind]
      refine bind_congr_ok fun found hfound => bind_congr_ok fun code _ => ?_
      cases dtypeOfCode? code with
      | none => rfl
      | some dtype => exact uniformInWords_eq (hwords found hfound)
  · unfold Fill.tensor
    split
    case h_6 => rfl
    all_goals contradiction

end Fill

namespace WeightTable

variable {table : WeightTable} {name : String} {tensor : Tensor} {init : NetDefinition}

/-- The map of a table leads to the places of its entries. -/
theorem indexed_keeps (table : WeightTable) :
    table.indexed.Keeps (table.entries.map fun entry => (entry.1, entry.2.storage)) :=
  PlacedEntries.keeps_foldl Tensor.storage table.distinct

theorem insert_indexed :
    table.indexed.insert name tensor.storage = indexed <$> table.insert name tensor := by
  have hnames : (table.entries.map fun entry => (entry.1, entry.2.storage)).map Prod.fst =
      table.entries.map Prod.fst := List.map_map
  by_cases hname : name ∈ table.entries.map Prod.fst
  · rw [table.indexed_keeps.insert_of_mem (hnames ▸ hname), insert, dif_pos hname]
    rfl
  · rw [table.indexed_keeps.insert_of_fresh (hnames ▸ hname), insert, dif_neg hname]
    simp [indexed]

theorem addFillInWords_eq (hwords : Fill.FitsWords bits op) :
    addFillInWords bits table.indexed op = indexed <$> addFill table op := by
  rw [addFillInWords, addFill, Fill.tensorInWords_eq hwords, map_bind, bind_map_left]
  refine bind_congr_ok fun tensor _ => ?_
  rw [map_bind]
  exact bind_congr_ok fun name _ => insert_indexed

theorem foldlM_addFillInWords_eq {ops : List Operator}
    (hwords : ∀ op ∈ ops, Fill.FitsWords bits op) (table : WeightTable) :
    ops.foldlM (addFillInWords bits) table.indexed = indexed <$> ops.foldlM addFill table := by
  induction ops generalizing table with
  | nil => rfl
  | cons op ops ih =>
      rw [List.forall_mem_cons] at hwords
      rw [List.foldlM_cons, List.foldlM_cons, addFillInWords_eq hwords.1, map_bind, bind_map_left]
      exact bind_congr_ok fun next _ => ih hwords.2 next

theorem ofNetInWords_eq (hwords : ∀ op ∈ init.operators, Fill.FitsWords bits op) :
    ofNetInWords bits init = indexed <$> ofNet init :=
  foldlM_addFillInWords_eq hwords empty

end WeightTable
end NetImport
