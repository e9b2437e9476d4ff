import NetImport.Proofs.Graph.Derivations
import NetImport.Proofs.Lowering.Continued
import NetImport.Proofs.Lowering.RequestedExtents

/-!
# Lowerings that check every look

A lowering looks into lists by position, cuts them, takes differences, divides, and writes
over a place.  A checked lowering makes each of these a step that fails outside of its domain.
It does what the lowering does, on every workspace; on a sound one no step is ever outside of
its domain, whatever the operator says.
-/

namespace NetImport
namespace Lowering

variable {op : Operator} {work : Workspace}

namespace Checked

/-! ## Steps with a domain -/

/-- The value of a step, if its operands are in its domain. -/
def within {α : Type} (op : Operator) (domain : Prop) [Decidable domain] (value : α) :
    Except LoadError α :=
  if domain then .ok value else .error (.outOfDomain op.label)

def quotient (op : Operator) (dividend divisor : Nat) : Except LoadError Nat :=
  within op (divisor ≠ 0) (dividend / divisor)

def remainder (op : Operator) (dividend divisor : Nat) : Except LoadError Nat :=
  within op (divisor ≠ 0) (dividend % divisor)

def replaceAt (op : Operator) (entries : List Nat) (index entry : Nat) :
    Except LoadError (List Nat) :=
  within op (index < entries.length) (entries.set index entry)

theorem within_eq_ok {α : Type} {domain : Prop} [Decidable domain] {value : α}
    (hdomain : domain) : within op domain value = .ok value :=
  if_pos hdomain

def swap (op : Operator) (entries : List Nat) (i j : Nat) : Lowering (List Nat) := do
  let a ← extentAt op entries i
  let b ← extentAt op entries j
  let once ← ofExcept (replaceAt op entries i b)
  ofExcept (replaceAt op once j a)

/-! ## Requested extents -/

def isUndetermined (op : Operator) (total known : Nat) : Except LoadError Bool :=
  if known = 0 then .ok true
  else do
    let left ← remainder op total known
    return left ≠ 0

/-- Puts the extent that is left over at its place. -/
def fillAt (op : Operator) (input : List Nat) (spec : List Int) (dims : List Nat)
    (place : Nat) : Except LoadError (List Nat) := do
  let total := product input
  let known := product dims
  if ← isUndetermined op total known then
    .error (shapeError op
      (s!"cannot infer -1 reshaping {Kernel.listText input} to " ++
        bracketed (spec.map toString)))
  else
    let left ← quotient op total known
    replaceAt op dims place left

def resolveExtents (op : Operator) (input : List Nat) (spec : List Int) :
    Except LoadError (List Nat) := do
  let entries ← readExtents op input 0 false spec
  let dims := entries.map fun entry => entry.getD 1
  let dims ←
    match entries.idxOf? none with
    | none => pure dims
    | some place => fillAt op input spec dims place
  if product dims ≠ product input then
    .error (shapeError op
      (s!"reshape {Kernel.listText input} to {Kernel.listText dims} " ++
        "changes the element count"))
  return dims

def reshape (op : Operator) : Lowering Unit := do
  let value ← input op 0
  let inputDims ← dimsOf op value
  let spec ← requestedExtents op
  let dims ← ofExcept (resolveExtents op inputDims spec)
  bindOutput op 0 (← build op fun graph => graph.reshape op.label value dims)
  if 1 < op.outputs.length then
    bindConstantOutput op 1 (Tensor.ofList .i64 (inputDims.map Int64.ofNat))

/-! ## Products of batches -/

def lastSwapped (op : Operator) (rank : Nat) : Lowering (List Nat) := do
  let i ← difference op rank 2
  let j ← difference op rank 1
  swap op (List.range rank) i j

def productWithSingle (op : Operator) (lhs rhs : BatchOperand) : Lowering Handle := do
  let a ←
    if lhs.transposed then do
      let axes ← lastSwapped op (lhs.batch.length + 2)
      build op fun graph => graph.transpose (nodeName op "lhs_t") lhs.value axes
    else pure lhs.value
  let (rows, inner) :=
    if lhs.transposed then (lhs.columns, lhs.rows) else (lhs.rows, lhs.columns)
  let a ← reshapeTo op a [lhs.count * rows, inner] "lhs_2d"
  let b ← rhs.toMatrix op "rhs"
  let result ← build op fun graph => graph.matrixProduct (nodeName op "matmul") a b
  let columns ← extentAt op (← dimsOf op result) 1
  -- this difference is meant to stop at zero: a longer left batch lacks no units
  let units := List.replicate (rhs.batch.length - lhs.batch.length) 1
  reshapeTo op result (units ++ lhs.batch ++ [rows, columns]) "reshape"

/-- The units that make a batch as long as a longer one. -/
def missingUnits (op : Operator) (length other : Nat) : Lowering (List Nat) := do
  if length < other then
    return List.replicate (← difference op other length) 1
  else return []

def batchProduct (op : Operator) (broadcast : Bool) (lhs rhs : BatchOperand) :
    Lowering Handle := do
  if lhs.batch.length ≠ rhs.batch.length ∧ ¬ broadcast then
    throw (shapeError op
      (s!"operand ranks differ ({lhs.batch.length + 2} vs {rhs.batch.length + 2}) " ++
        "and broadcast is not set"))
  if lhs.batch = [] ∧ rhs.batch = [] then
    let a ← lhs.toMatrix op "lhs"
    let b ← rhs.toMatrix op "rhs"
    build op fun graph => graph.matrixProduct op.label a b
  else if lhs.batch = rhs.batch then productPerPosition op lhs rhs lhs.batch
  else if ¬ broadcast then
    throw (shapeError op
      (s!"batch dims {Kernel.listText lhs.batch} and {Kernel.listText rhs.batch} " ++
        "differ and broadcast is not set"))
  else if rhs.isSingle then productWithSingle op lhs rhs
  else if lhs.isSingle then
    let units ← missingUnits op rhs.batch.length lhs.batch.length
    productPerPosition op lhs rhs (units ++ rhs.batch)
  else
    throw (shapeError op
      (s!"cannot broadcast batch dims {Kernel.listText lhs.batch} " ++
        s!"against {Kernel.listText rhs.batch}"))

def batchMatMul (op : Operator) : Lowering Unit := do
  let transA ← ofExcept (op.flagArg "trans_a")
  let transB ← ofExcept (op.flagArg "trans_b")
  let broadcast ← ofExcept (op.flagArg "broadcast")
  let a ← input op 0
  let b ← input op 1
  let lhs ← BatchOperand.read op a transA
  let rhs ← BatchOperand.read op b transB
  bindOutput op 0 (← batchProduct op broadcast lhs rhs)

/-! ## Operators -/

def dropout (op : Operator) : Lowering Unit := do
  let value ← input op 0
  if 1 < op.outputs.length then
    let _ ← ofExcept (within op (1 < op.outputs.length) op.outputs[1]?)
  bindOutput op 0 value

/-- The other lowerings check their steps themselves. -/
def ofKind : OperatorKind → Operator → Lowering Unit
  | .batchMatMul => batchMatMul
  | .reshape => reshape
  | .dropout => dropout
  | kind => Lowering.ofKind kind

/-- An operator, and the count of the nodes that it has appended. -/
def operator (op : Operator) : Lowering Unit :=
  match OperatorKind.parse? op.kind with
  | none => throw (.unsupportedOperator op.kind)
  | some kind => do
      let before := (← get).graph.nodes.size
      ofKind kind op
      let _ ← difference op (← get).graph.nodes.size before

/-! ## Checked steps do what the steps do -/

theorem isUndetermined_eq (total known : Nat) :
    isUndetermined op total known = .ok (decide (known = 0 ∨ total % known ≠ 0)) := by
  by_cases hknown : known = 0
  · rw [isUndetermined, if_pos hknown, decide_eq_true (.inl hknown)]
  · rw [isUndetermined, if_neg hknown, remainder, within_eq_ok hknown]
    simp [hknown]

theorem fillAt_eq (input : List Nat) (spec : List Int) (before after : List Nat) :
    fillAt op input spec (before ++ 1 :: after) before.length =
      if product (before ++ 1 :: after) = 0 ∨ product input % product (before ++ 1 :: after) ≠ 0 then
        .error (shapeError op
          (s!"cannot infer -1 reshaping {Kernel.listText input} to " ++
            bracketed (spec.map toString)))
      else .ok (before ++ product input / product (before ++ 1 :: after) :: after) := by
  simp only [fillAt, isUndetermined_eq, ok_bind, decide_eq_true_eq]
  split
  · rfl
  · next hdetermined =>
      have hknown : product (before ++ 1 :: after) ≠ 0 := fun hzero => hdetermined (.inl hzero)
      rw [quotient, within_eq_ok hknown, ok_bind, replaceAt, within_eq_ok (by simp)]
      simp

theorem idxOf?_open (before after : List Nat) :
    (before.map some ++ none :: after.map some).idxOf? none = some before.length := by
  rw [List.idxOf?_eq_some_iff]
  refine ⟨by simp, by simp, fun j hj => ?_⟩
  rw [List.getElem_append_left (by simpa using hj)]
  simp

theorem resolveExtents_eq (input : List Nat) (spec : List Int) :
    resolveExtents op input spec = Lowering.resolveExtents op input spec := by
  cases hread : readExtents op input 0 false spec with
  | error error => simp only [resolveExtents, Lowering.resolveExtents, hread, error_bind]
  | ok reads =>
      obtain ⟨hreads, hinferred⟩ := readExtents_eq_ok_iff.mp hread
      have hcount : reads.count none ≤ 1 := by
        rw [count_none_of_reads hreads]
        exact Nat.le_of_add_right_le hinferred
      simp only [resolveExtents, Lowering.resolveExtents, hread, ok_bind]
      -- one extent is open at most, so that the first open place is the only one
      rcases all_known_or_one_open hcount with ⟨known, rfl⟩ | ⟨before, after, rfl⟩
      · have hplace : (known.map some).idxOf? none = none := by simp
        rw [hplace, if_neg (by simp)]
        simp only [map_getD_known]
        rfl
      · have hopen : (before.map some ++ none :: after.map some).contains none = true := by simp
        simp only [idxOf?_open, map_getD_open, hopen, true_and, fillAt_eq]
        split <;> rfl

theorem reshape_eq : reshape op = Lowering.reshape op := by
  simp only [reshape, Lowering.reshape, resolveExtents_eq]

theorem swap_last (axes : List Nat) (i j : Nat) :
    swap op (axes ++ [i, j]) axes.length (axes.length + 1) = pure (axes ++ [j, i]) := by
  have hfirst : extentAt op (axes ++ [i, j]) axes.length = pure i := by
    rw [extentAt, List.getElem?_append_right (Nat.le_refl _)]
    simp
  have hsecond : extentAt op (axes ++ [i, j]) (axes.length + 1) = pure j := by
    rw [extentAt, List.getElem?_append_right (Nat.le_succ _)]
    simp
  have honce : replaceAt op (axes ++ [i, j]) axes.length j = .ok (axes ++ [j, j]) := by
    rw [replaceAt, within_eq_ok (by simp)]
    simp
  have htwice : replaceAt op (axes ++ [j, j]) (axes.length + 1) i = .ok (axes ++ [j, i]) := by
    rw [replaceAt, within_eq_ok (by simp)]
    simp
  rw [swap, hfirst, hsecond, pure_bind, pure_bind, honce]
  exact congrArg ofExcept htwice

theorem lastSwapped_eq (n : Nat) :
    lastSwapped op (n + 2) = pure (List.range n ++ [n + 1, n]) := by
  have hrange : List.range (n + 2) = List.range n ++ [n, n + 1] := by
    rw [List.range_succ, List.range_succ, List.append_assoc]
    rfl
  have hswap := @swap_last op (List.range n) n (n + 1)
  rw [List.length_range] at hswap
  simpa [lastSwapped, difference, hrange] using hswap

theorem productWithSingle_eq (lhs rhs : BatchOperand) :
    productWithSingle op lhs rhs = Lowering.productWithSingle op lhs rhs := by
  simp only [productWithSingle, Lowering.productWithSingle, lastSwapped_eq, pure_bind,
    Nat.add_sub_cancel]
  rfl

theorem missingUnits_eq (length other : Nat) :
    missingUnits op length other = pure (List.replicate (other - length) 1) := by
  by_cases hshorter : length < other
  · rw [missingUnits, if_pos hshorter, difference, if_pos (Nat.le_of_lt hshorter), pure_bind]
  · rw [missingUnits, if_neg hshorter, Nat.sub_eq_zero_of_le (Nat.le_of_not_lt hshorter)]
    rfl

theorem batchMatMul_eq : batchMatMul op = Lowering.batchMatMul op := by
  have hproduct (broadcast : Bool) (lhs rhs : BatchOperand) :
      batchProduct op broadcast lhs rhs = Lowering.batchProduct op broadcast lhs rhs := by
    simp only [batchProduct, Lowering.batchProduct, productWithSingle_eq, missingUnits_eq,
      pure_bind]
  simp only [batchMatMul, Lowering.batchMatMul, hproduct]

theorem dropout_eq : dropout op = Lowering.dropout op := by
  by_cases hmask : 1 < op.outputs.length
  · simp only [dropout, Lowering.dropout, if_pos hmask, within_eq_ok hmask]
    rfl
  · simp only [dropout, Lowering.dropout, if_neg hmask]

theorem ofKind_eq (kind : OperatorKind) : ofKind kind op = Lowering.ofKind kind op := by
  cases kind with
  | batchMatMul => exact batchMatMul_eq
  | reshape => exact reshape_eq
  | dropout => exact dropout_eq
  | _ => rfl

theorem run_operator (op : Operator) (work : Workspace) :
    (operator op).run.run work = (Lowering.operator op).run.run work := by
  have hgrows := (grows_operator op).run_related work
  cases hkind : OperatorKind.parse? op.kind with
  | none => simp only [operator, Lowering.operator, hkind]
  | some kind =>
      simp only [Lowering.operator, hkind] at hgrows
      simp only [operator, Lowering.operator, hkind]
      rw [run_bind, run_get]
      dsimp only
      rw [run_bind, ofKind_eq]
      generalize (Lowering.ofKind kind op).run.run work = outcome at hgrows ⊢
      obtain ⟨error | result, last⟩ := outcome
      · rfl
      · -- nodes are only ever appended
        obtain ⟨nodes, bindings, happends⟩ := hgrows.appends
        have hsize : work.graph.nodes.size ≤ last.graph.nodes.size :=
          happends.size_eq ▸ Nat.le_add_right _ _
        dsimp only
        rw [run_bind, run_get]
        dsimp only
        rw [difference, if_pos hsize]
        rfl

end Checked

/-- On a sound workspace no operator, whatever it says, takes its lowering out of the domain of one
of its steps, and no derivation of a type is ever at fault. -/
theorem lowering_stays_within (hsound : work.Sound) (op : Operator) :
    (Checked.operator op).run.run work = (operator op).run.run work ∧
      (∀ label last, (Checked.operator op).run.run work ≠ (.error (.outOfDomain label), last)) ∧
      ∀ kind defined, Typing.Checked.infer kind defined = liftM (Typing.infer kind defined) ∧
        Typing.Checked.infer kind defined ≠ .error .fault := by
  refine ⟨Checked.run_operator op work, fun label last hrun => ?_, fun kind defined => ?_⟩
  · rw [Checked.run_operator] at hrun
    exact (proper_of_run_operator hsound hrun).ne_outOfDomain label rfl
  · rw [Typing.Checked.infer_eq]
    exact ⟨rfl, Typing.liftM_ne_fault _⟩

/-- Two matrices, each transposed, times one. -/
def turnedProduct : Operator :=
  ⟨"BatchMatMul", ["stack", "matrix"], ["y"], none,
    ⟨[("broadcast", .int 1), ("trans_a", .int 1)], List.pairwise_pair.mpr (by decide)⟩⟩

def openReshape : Operator :=
  ⟨"Reshape", ["stack"], ["r", "old"], none,
    ⟨[("shape", .ints [0, -1])], List.pairwise_singleton _ _⟩⟩

def farSoftmax : Operator :=
  ⟨"Softmax", ["stack"], ["s"], none,
    ⟨[("axis", .int (-9223372036854775808))], List.pairwise_singleton _ _⟩⟩

def turnedOperands : Workspace where
  graph := ⟨"turned", #[
    ⟨"stack", .variable .placeholder ⟨.f32, ⟨[2, 3, 5]⟩⟩, [⟨.f32, ⟨[2, 3, 5]⟩⟩]⟩,
    ⟨"matrix", .variable .placeholder ⟨.f32, ⟨[3, 4]⟩⟩, [⟨.f32, ⟨[3, 4]⟩⟩]⟩]⟩
  env := ⟨[("stack", .first 0), ("matrix", .first 1)], by decide⟩

theorem turnedOperands_lowering_stays_within :
    ((Checked.operator turnedProduct).run.run turnedOperands).1 = .ok () ∧
      ((Checked.operator openReshape).run.run turnedOperands).1 = .ok () ∧
      ∃ error last, (Checked.operator farSoftmax).run.run turnedOperands = (.error error, last) ∧
        ∀ label, error ≠ .outOfDomain label := by
  have hsound : turnedOperands.Sound := by
    intro entry hentry
    rcases List.mem_pair.mp hentry with rfl | rfl
    · exact ⟨_, rfl⟩
    · exact ⟨_, rfl⟩
  have hwithin := lowering_stays_within hsound
  refine ⟨?_, ?_, ?_⟩
  · rw [(hwithin turnedProduct).1]
    decide +kernel
  · rw [(hwithin openReshape).1]
    decide +kernel
  · obtain ⟨-, hstays, -⟩ := hwithin farSoftmax
    have herror : ((Checked.operator farSoftmax).run.run turnedOperands).1 = .error
        (.malformedArgument "s" "axis" "axis -9223372036854775808 out of range for rank 3") := by
      decide +kernel
    refine ⟨_, _, Prod.ext herror rfl, ?_⟩
    rintro label hlabel
    exact hstays label _ (Prod.ext (herror.trans (congrArg _ hlabel)) rfl)

end Lowering
end NetImport
