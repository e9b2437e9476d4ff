import NetImport.Proofs.Lowering.BatchWords

/-!
# Batched matrix products

What a batched product comes to, by the coordinates of its operands: at every place of the
batch the result is the product of the matrices that the operands have there, each
transposed if its flag says so.  An operand with a single matrix has it everywhere.  In words
the product is lowered in the same way while the positions and elements of the batch are words.
-/

namespace NetImport

namespace Lowering
namespace BatchOperand

variable {operand lhs rhs : BatchOperand} {broadcast : Bool}

/-- The place of an operand's matrix that stands at a place of the batch of a product. -/
def place (operand : BatchOperand) (coords : List Nat) : List Nat :=
  if operand.isSingle then origin operand.batch
  else coords.drop (coords.length - operand.batch.length)

/-- An element of the matrix that an operand has at a place of a batch. -/
def entry? (operand : BatchOperand) (tensor : Tensor) (coords : List Nat) (i j : Nat) :
    Option Float32 :=
  tensor.at? .f32 (operand.place coords ++ if operand.transposed then [j, i] else [i, j])

theorem isSingle_of_count (hcount : operand.count = 1) : operand.isSingle := by
  refine List.all_eq_true.mpr fun extent hextent => ?_
  simpa using eq_one_of_product_eq_one hcount extent hextent

/-- An operand is a single matrix, or the batch of a product is its own one with units in
front. -/
def Fills (operand : BatchOperand) (batch : List Nat) : Prop :=
  operand.isSingle ∨ ∃ units, batch = List.replicate units 1 ++ operand.batch

theorem Combine.fills_lhs (hcombine : lhs.Combine broadcast rhs) :
    lhs.Fills (lhs.productBatch rhs) := by
  unfold productBatch
  split
  · exact .inr ⟨0, rfl⟩
  · next hdiffer =>
      split
      · exact .inr ⟨_, rfl⟩
      · next hbatched =>
          obtain ⟨-, hsingle⟩ := hcombine.resolve_left hdiffer
          exact .inl (hsingle.resolve_right hbatched)

theorem fills_rhs (lhs rhs : BatchOperand) : rhs.Fills (lhs.productBatch rhs) := by
  unfold productBatch
  split
  · next hsame => exact .inr ⟨0, hsame⟩
  · split
    · next hsingle => exact .inl hsingle
    · exact .inr ⟨_, rfl⟩

/-- The place of an operand has the position that its stack has for the batch. -/
theorem Fills.offset_place {batch coords : List Nat} (hfills : operand.Fills batch)
    (hcoords : inBounds batch coords) (element : Nat → Nat → Nat → Float32) :
    inBounds operand.batch (operand.place coords) ∧
      offset operand.batch (operand.place coords) =
        (operand.matrices element).pick (offset batch coords) := by
  by_cases hsingle : operand.isSingle
  · have hcount := count_of_isSingle hsingle
    have hpick : (operand.matrices element).pick (offset batch coords) = 0 := if_pos hcount
    rw [place, if_pos hsingle, hpick, offset_origin]
    have hproduct : product operand.batch ≠ 0 := ne_of_eq_of_ne hcount Nat.one_ne_zero
    exact ⟨inBounds_origin hproduct, rfl⟩
  · have hcount : ¬operand.count = 1 := fun hcount => hsingle (isSingle_of_count hcount)
    have hpick : (operand.matrices element).pick (offset batch coords) = offset batch coords :=
      if_neg hcount
    obtain ⟨units, rfl⟩ := hfills.resolve_left hsingle
    have hlength := length_of_inBounds hcoords
    have hunits : coords.length - operand.batch.length = units := by
      rw [hlength, List.length_append, List.length_replicate, Nat.add_sub_cancel]
    rw [place, if_neg hsingle, hpick, hunits]
    obtain ⟨hinside, hoffset⟩ := offset_drop_units hcoords
    exact ⟨hinside, hoffset.symm⟩

theorem entry?_eq_some {tensor : Tensor} {element : Nat → Nat → Nat → Float32}
    {batch coords : List Nat} {i j : Nat}
    (hstacks : tensor.Stacks operand.dims (operand.stored element)) (hfills : operand.Fills batch)
    (hcoords : inBounds batch coords) (hi : i < operand.height) (hj : j < operand.width) :
    operand.entry? tensor coords i j =
      some ((operand.matrices element).element
        ((operand.matrices element).pick (offset batch coords)) i j) := by
  obtain ⟨hinside, hoffset⟩ := hfills.offset_place hcoords element
  have hlength := length_of_inBounds hinside
  have hat {i j : Nat} (hi : i < operand.rows) (hj : j < operand.columns) :
      tensor.at? .f32 (operand.place coords ++ [i, j]) =
        some (element (offset operand.batch (operand.place coords)) i j) := by
    refine Tensor.Stacks.at?_eq hstacks ((inBounds_append_iff hlength).mpr ⟨hinside, ?_⟩) hlength
    simp [inBounds, hi, hj]
  rw [← hoffset, entry?]
  cases htransposed : operand.transposed with
  | true =>
      obtain ⟨hheight, hwidth, hmatrices⟩ := oriented_of_transposed htransposed element
      rw [hheight] at hi
      rw [hwidth] at hj
      rw [if_pos rfl, hmatrices]
      exact hat hj hi
  | false =>
      obtain ⟨hheight, hwidth, hmatrices⟩ := oriented_of_straight htransposed element
      rw [hheight] at hi
      rw [hwidth] at hj
      rw [if_neg Bool.false_ne_true, hmatrices]
      exact hat hi hj

/-- An operator has an operand of 32-bit numbers at one of its inputs. -/
structure IsInput (operand : BatchOperand) (work : Workspace) (op : Operator) (index : Nat)
    (flag : String) : Prop where
  bound : ∃ name, op.inputs[index]? = some name ∧ work.env.get? name = some operand.value
  typed : work.graph.valueType operand.value = .ok ⟨.f32, ⟨operand.dims⟩⟩
  flagged : op.flagArg flag = .ok operand.transposed

variable {work : Workspace} {op : Operator} {index : Nat} {flag : String}

theorem run_read
    (htyped : work.graph.valueType operand.value = .ok ⟨.f32, ⟨operand.dims⟩⟩) :
    (read op operand.value operand.transposed).run.run work = (.ok operand, work) := by
  have hrank : operand.dims.length = operand.batch.length + 2 := by simp [dims]
  have htake : operand.dims.take operand.batch.length = operand.batch := by simp [dims]
  have hrows : operand.dims[operand.batch.length]? = some operand.rows := by simp [dims]
  have hcolumns : operand.dims[operand.batch.length + 1]? = some operand.columns := by simp [dims]
  have haxis : operand.dims.length - 2 = operand.batch.length := by omega
  rw [read, run_bind, run_dimsOf htyped]
  dsimp only [TensorType.dims]
  rw [if_neg (by omega), run_bind, run_difference (by omega), haxis]
  dsimp only
  rw [run_bind, run_splitAt (by omega), htake]
  dsimp only
  rw [run_bind, run_extentAt hrows]
  dsimp only
  rw [run_bind, run_extentAt hcolumns]
  rfl

theorem IsInput.run_input (hinput : operand.IsInput work op index flag) :
    (input op index).run.run work = (.ok operand.value, work) :=
  Lowering.run_input ⟨hinput.bound, hinput.typed⟩

end BatchOperand

variable {op : Operator} {work : Workspace} {lhs rhs : BatchOperand} {broadcast : Bool}

/-- A batched product looks at its flags and operands and goes on with what it has found. -/
theorem run_readOperands {f : Bool → BatchOperand → BatchOperand → Lowering Unit}
    (hlhs : lhs.IsInput work op 0 "trans_a") (hrhs : rhs.IsInput work op 1 "trans_b")
    (hbroadcast : op.flagArg "broadcast" = .ok broadcast) :
    (do
      let transA ← ofExcept (op.flagArg "trans_a")
      let transB ← ofExcept (op.flagArg "trans_b")
      let broadcast ← ofExcept (op.flagArg "broadcast")
      let a ← input op 0
      let b ← input op 1
      let lhs ← BatchOperand.read op a transA
      let rhs ← BatchOperand.read op b transB
      f broadcast lhs rhs).run.run work = (f broadcast lhs rhs).run.run work := by
  have hread {α : Type} {m : Lowering α} {a : α} {f : α → Lowering Unit}
      (hm : m.run.run work = (.ok a, work)) : (m >>= f).run.run work = (f a).run.run work := by
    rw [run_bind, hm]
  rw [hread (run_ofExcept hlhs.flagged), hread (run_ofExcept hrhs.flagged),
    hread (run_ofExcept hbroadcast), hread hlhs.run_input, hread hrhs.run_input,
    hread (BatchOperand.run_read hlhs.typed), hread (BatchOperand.run_read hrhs.typed)]

theorem run_batchMatMul (hkind : OperatorKind.parse? op.kind = some .batchMatMul)
    (hlhs : lhs.IsInput work op 0 "trans_a") (hrhs : rhs.IsInput work op 1 "trans_b")
    (hbroadcast : op.flagArg "broadcast" = .ok broadcast) :
    (operator op).run.run work =
      (batchProduct op broadcast lhs rhs >>= bindOutput op 0).run.run work := by
  rw [operator_eq hkind]
  exact @run_readOperands _ _ _ _ _
    (fun broadcast lhs rhs => batchProduct op broadcast lhs rhs >>= bindOutput op 0) hlhs hrhs
    hbroadcast

theorem run_batchMatMulInWords (bits : Nat) (hlhs : lhs.IsInput work op 0 "trans_a")
    (hrhs : rhs.IsInput work op 1 "trans_b")
    (hbroadcast : op.flagArg "broadcast" = .ok broadcast) :
    (batchMatMulInWords bits op).run.run work =
      (batchProductInWords bits op broadcast lhs rhs >>= bindOutput op 0).run.run work :=
  @run_readOperands _ _ _ _ _
    (fun broadcast lhs rhs => batchProductInWords bits op broadcast lhs rhs >>= bindOutput op 0)
    hlhs hrhs hbroadcast

namespace BatchOperand

/-- The tensor that an operand stands for under some bindings. -/
structure HasValue (operand : BatchOperand) (work : Workspace) (bindings : Bindings)
    (tensor : Tensor) : Prop where
  evaluates : work.graph.evaluate bindings operand.value.node = .ok tensor
  type_eq : tensor.type = ⟨.f32, ⟨operand.dims⟩⟩

theorem HasValue.exists_holds {operand : BatchOperand} {bindings : Bindings} {tensor : Tensor}
    (hvalue : operand.HasValue work bindings tensor)
    (htyped : work.graph.valueType operand.value = .ok ⟨.f32, ⟨operand.dims⟩⟩) :
    ∃ element, tensor.Stacks operand.dims (operand.stored element) ∧
      work.Holds bindings True operand.value operand.dims (operand.stored element) := by
  obtain ⟨element, hstacks⟩ := Tensor.exists_stacks hvalue.type_eq
  exact ⟨element, hstacks, htyped, fun _ => ⟨tensor, hvalue.evaluates, hstacks⟩⟩

end BatchOperand

/-- The product of two operands has, at every place of the batch, the product of the matrices
that the operands have there. -/
theorem HoldsProduct.exists_result {bindings : Bindings} {a b : Tensor} {value : Handle}
    {x y : Nat → Nat → Nat → Float32}
    (hholds : HoldsProduct work bindings True lhs rhs x y value)
    (hinner : lhs.width = rhs.height) (hcombine : lhs.Combine broadcast rhs)
    (ha : a.Stacks lhs.dims (lhs.stored x)) (hb : b.Stacks rhs.dims (rhs.stored y)) :
    let dims := lhs.productBatch rhs ++ [lhs.height, rhs.width]
    ∃ result, work.graph.evaluate bindings value.node = .ok result ∧
      result.type = ⟨.f32, ⟨dims⟩⟩ ∧
      ∀ (coords : List Nat) (i j : Nat), inBounds dims (coords ++ [i, j]) →
        ∃ element, result.at? .f32 (coords ++ [i, j]) = some element ∧
          dotProduct? lhs.width (fun k => lhs.entry? a coords i k)
            (fun k => rhs.entry? b coords k j) = some element := by
  intro dims
  obtain ⟨result, hresult, hstacks⟩ := hholds.evaluates trivial
  refine ⟨result, hresult, hstacks.type_eq, fun coords i j hcoords => ?_⟩
  have hlength : coords.length = (lhs.productBatch rhs).length := by
    simpa [dims] using length_of_inBounds hcoords
  obtain ⟨hbatch, hlast⟩ := (inBounds_append_iff hlength).mp hcoords
  obtain ⟨hi, hlast⟩ := (inBounds_cons ..).mp hlast
  obtain ⟨hj, -⟩ := (inBounds_cons ..).mp hlast
  refine ⟨_, Tensor.Stacks.at?_eq hstacks hcoords hlength, dotProduct?_eq_some ?_ ?_⟩
  · exact fun k hk => BatchOperand.entry?_eq_some ha hcombine.fills_lhs hbatch hi hk
  · intro k hk
    exact BatchOperand.entry?_eq_some hb (BatchOperand.fills_rhs lhs rhs) hbatch (hinner ▸ hk) hj

/-- A batched product that is lowered has multiplied the matrices at every place of the
batch, and it is lowered whenever the operands fit together and the output is free.  In words
it is lowered as without, while the counts of the operands and of the product are words. -/
theorem batchMatMul_computes_products
    (hkind : OperatorKind.parse? op.kind = some .batchMatMul)
    (hlhs : lhs.IsInput work op 0 "trans_a") (hrhs : rhs.IsInput work op 1 "trans_b")
    (hbroadcast : op.flagArg "broadcast" = .ok broadcast) :
    let dims := lhs.productBatch rhs ++ [lhs.height, rhs.width]
    (∀ last, (operator op).run.run work = (.ok (), last) →
      lhs.width = rhs.height ∧ lhs.Combine broadcast rhs ∧
      ∃ name value, op.outputs[0]? = some name ∧ last.env.get? name = some value ∧
        last.graph.valueType value = .ok ⟨.f32, ⟨dims⟩⟩ ∧
        ∀ (bindings : Bindings) (a b : Tensor), lhs.HasValue work bindings a →
          rhs.HasValue work bindings b →
          ∃ result, last.graph.evaluate bindings value.node = .ok result ∧
            result.type = ⟨.f32, ⟨dims⟩⟩ ∧
            ∀ (coords : List Nat) (i j : Nat), inBounds dims (coords ++ [i, j]) →
              ∃ element, result.at? .f32 (coords ++ [i, j]) = some element ∧
                dotProduct? lhs.width (fun k => lhs.entry? a coords i k)
                  (fun k => rhs.entry? b coords k j) = some element) ∧
    (lhs.width = rhs.height → lhs.Combine broadcast rhs →
      (∀ extent ∈ lhs.productBatch rhs, extent ≠ 0) →
      (∃ name, op.outputs[0]? = some name ∧ work.env.get? name = none) →
      ∃ last, (operator op).run.run work = (.ok (), last)) ∧
    ∀ bits, lhs.FitsWords bits → rhs.FitsWords bits → lhs.ProductFitsWords bits rhs →
      (batchMatMulInWords bits op).run.run work = (operator op).run.run work := by
  intro dims
  have hrunEq := run_batchMatMul hkind hlhs hrhs hbroadcast
  -- what is known of the operands before any bindings are given
  have hlhsTyped : work.Holds .empty False lhs.value lhs.dims (lhs.stored fun _ _ _ => 0.0) :=
    ⟨hlhs.typed, False.elim⟩
  have hrhsTyped : work.Holds .empty False rhs.value rhs.dims (rhs.stored fun _ _ _ => 0.0) :=
    ⟨hrhs.typed, False.elim⟩
  have houtcome := @succeedsIff_batchProduct work .empty False op lhs rhs _ _ broadcast hlhsTyped
    hrhsTyped
  refine ⟨?_, ?_, ?_⟩
  · intro last hrun
    rw [hrunEq] at hrun
    obtain ⟨value, next, hproduct, hbind⟩ := run_bind_eq_ok_iff.mp hrun
    obtain ⟨⟨hinner, hcombine, -⟩, -, htyped⟩ := houtcome.ensures hproduct
    obtain ⟨name, hname, happends⟩ := appends_of_run_bindOutput hbind
    have hvalue : last.env.get? name = some value := by
      rw [Environment.get?_eq_some_iff, happends.entries_eq]
      simp
    rw [happends.graph_eq]
    refine ⟨hinner, hcombine, name, value, hname, hvalue, htyped.type_eq, ?_⟩
    intro bindings a b ha hb
    obtain ⟨x, hastacks, haholds⟩ := ha.exists_holds hlhs.typed
    obtain ⟨y, hbstacks, hbholds⟩ := hb.exists_holds hrhs.typed
    obtain ⟨-, -, hholds⟩ := (succeedsIff_batchProduct haholds hbholds).ensures hproduct
    exact hholds.exists_result hinner hcombine hastacks hbstacks
  · rintro hinner hcombine hextents ⟨name, hname, hfree⟩
    obtain ⟨value, next, hproduct⟩ :=
      houtcome.succeeds ⟨hinner, hcombine, .inl (product_ne_zero hextents)⟩
    obtain ⟨nodes, happends, -⟩ := (houtcome.ensures hproduct).2.1.appends
    rw [← happends.env_eq] at hfree
    have hbinds : BindsIff op (bindOutput op 0 value) next True fun _ _ => True :=
      bindsIff_bindOutput fun _ => trivial
    obtain ⟨last, hbind⟩ := hbinds.succeeds trivial ⟨name, hname, hfree⟩
    exact ⟨last, hrunEq.trans (run_bind_eq_ok_iff.mpr ⟨value, next, hproduct, hbind⟩)⟩
  · intro bits hlhsWords hrhsWords hwords
    rw [hrunEq, run_batchMatMulInWords bits hlhs hrhs hbroadcast]
    have hproduct := @run_batchProductInWords bits work .empty False op lhs rhs _ _ broadcast
      hlhsTyped hrhsTyped hlhsWords hrhsWords hwords
    exact run_bind_congr hproduct fun _ _ _ => rfl

/-- Two matrices times the transpose of one weight matrix. -/
def sharedWeightProduct : Operator :=
  ⟨"BatchMatMul", ["a", "w"], ["y"], none,
    ⟨[("broadcast", .int 1), ("trans_b", .int 1)], List.pairwise_pair.mpr (by decide)⟩⟩

def sharedWeightOperands : Workspace where
  graph := ⟨"shared", #[
    ⟨"a", .variable .placeholder ⟨.f32, ⟨[2, 2, 3]⟩⟩, [⟨.f32, ⟨[2, 2, 3]⟩⟩]⟩,
    ⟨"w", .variable .placeholder ⟨.f32, ⟨[4, 3]⟩⟩, [⟨.f32, ⟨[4, 3]⟩⟩]⟩]⟩
  env := ⟨[("a", .first 0), ("w", .first 1)], by decide⟩

theorem sharedWeightProduct_computes_products :
    ∃ last value result, (operator sharedWeightProduct).run.run sharedWeightOperands =
        (.ok (), last) ∧
      (batchMatMulInWords 64 sharedWeightProduct).run.run sharedWeightOperands = (.ok (), last) ∧
      last.env.get? "y" = some value ∧
      last.graph.valueType value = .ok ⟨.f32, ⟨[2, 2, 4]⟩⟩ ∧
      last.graph.evaluate (.ofList [("a", Tensor.zeros .f32 ⟨[2, 2, 3]⟩),
        ("w", Tensor.zeros .f32 ⟨[4, 3]⟩)]) value.node = .ok result ∧
      result.type = ⟨.f32, ⟨[2, 2, 4]⟩⟩ := by
  have hlhs : (⟨.first 0, [2], 2, 3, false⟩ : BatchOperand).IsInput sharedWeightOperands
      sharedWeightProduct 0 "trans_a" :=
    ⟨⟨"a", rfl, rfl⟩, rfl, rfl⟩
  have hrhs : (⟨.first 1, [], 4, 3, true⟩ : BatchOperand).IsInput sharedWeightOperands
      sharedWeightProduct 1 "trans_b" :=
    ⟨⟨"w", rfl, rfl⟩, rfl, rfl⟩
  obtain ⟨hvalues, hsucceeds, hwords⟩ :=
    @batchMatMul_computes_products _ _ _ _ true rfl hlhs hrhs rfl
  obtain ⟨last, hrun⟩ := hsucceeds rfl (.inr ⟨rfl, .inr rfl⟩) (by decide) ⟨"y", rfl, rfl⟩
  obtain ⟨-, -, name, value, hname, hvalue, htype, hresult⟩ := hvalues last hrun
  obtain rfl : "y" = name := Option.some.inj hname
  obtain ⟨result, hevaluates, htyped, -⟩ := hresult
    (.ofList [("a", Tensor.zeros .f32 ⟨[2, 2, 3]⟩), ("w", Tensor.zeros .f32 ⟨[4, 3]⟩)]) _ _
    ⟨(Graph.evaluate_eq _ _ rfl).trans rfl, rfl⟩ ⟨(Graph.evaluate_eq _ _ rfl).trans rfl, rfl⟩
  have hinWords := hwords 64 ⟨by decide, by decide, by decide, by decide⟩
    ⟨by decide, by decide, by decide, by decide⟩ ⟨by decide, by decide, by decide⟩
  exact ⟨last, value, result, hrun, hinWords.trans hrun, hvalue, htype, hevaluates, htyped⟩

/-- A product of two batches with as many positions as there are words. -/
def wideBatchProduct : Operator :=
  ⟨"BatchMatMul", ["lhs", "rhs"], ["y"], none, .empty⟩

def wideBatchOperands : Workspace where
  graph := ⟨"wide", #[
    ⟨"lhs", .variable .placeholder ⟨.f32, ⟨[twoPow 32, twoPow 32, 0, 5]⟩⟩,
      [⟨.f32, ⟨[twoPow 32, twoPow 32, 0, 5]⟩⟩]⟩,
    ⟨"rhs", .variable .placeholder ⟨.f32, ⟨[twoPow 32, twoPow 32, 5, 0]⟩⟩,
      [⟨.f32, ⟨[twoPow 32, twoPow 32, 5, 0]⟩⟩]⟩]⟩
  env := ⟨[("lhs", .first 0), ("rhs", .first 1)], by decide⟩

/-- The operands fit together and no extent of the batch is zero, but in words the batch has no
positions and the product is refused. -/
theorem wideBatch_is_refused_in_words :
    ∃ lhs rhs : BatchOperand, lhs.IsInput wideBatchOperands wideBatchProduct 0 "trans_a" ∧
      rhs.IsInput wideBatchOperands wideBatchProduct 1 "trans_b" ∧
      lhs.width = rhs.height ∧ lhs.Combine false rhs ∧
      (∀ extent ∈ lhs.productBatch rhs, extent ≠ 0) ∧ wideBatchOperands.FreeOutput wideBatchProduct ∧
      ∃ last, (batchMatMulInWords 64 wideBatchProduct).run.run wideBatchOperands =
        (.error (shapeError wideBatchProduct "batch dims have no elements"), last) :=
  ⟨⟨.first 0, [twoPow 32, twoPow 32], 0, 5, false⟩, ⟨.first 1, [twoPow 32, twoPow 32], 5, 0, false⟩,
    ⟨⟨"lhs", rfl, rfl⟩, rfl, rfl⟩, ⟨⟨"rhs", rfl, rfl⟩, rfl, rfl⟩, rfl, .inl rfl, by decide,
    ⟨"y", rfl, rfl⟩, _, rfl⟩

end Lowering
end NetImport
