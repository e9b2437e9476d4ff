import NetImport.Proofs.Execution.Kernels
import NetImport.Proofs.InPlace.Concatenation
import NetImport.Proofs.InPlace.Elementwise
import NetImport.Proofs.InPlace.Pooling
import NetImport.Proofs.InPlace.Rows

/-!
# Calls of the routines

A call names a routine with its operands and parameters, and the kernel that the engine
applies for it.  Either the call writes the whole of its output, or it refuses and writes
nothing; only a pooling call can stop halfway, at a window past the edge.
-/

namespace NetImport
namespace InPlace

inductive Call where
  | convolution (conv : Convolution) (input filter : Tensor) (bias? : Option Tensor)
  | pooling (pool : Pooling) (input : Tensor)
  | matrixProduct (lhs rhs : Tensor)
  | softmax (input : Tensor)
  | arithmetic (op : ArithmeticOp) (lhs rhs : Tensor)
  | unary (op : UnaryOp) (input : Tensor)
  | clip (input : Tensor) (low high : Float)
  | isNaN (input : Tensor)
  | reshape (input : Tensor)
  | transpose (input : Tensor) (perm : List Nat)
  | slice (input : Tensor) (start : List Nat)
  | concat (inputs : List Tensor) (axis : Nat)
  | broadcast (input : Tensor) (axis : Nat)
  | splat (value : Float)
  | select (cond onTrue onFalse : Tensor)

namespace Call

/-- The routine, on the storage of the output. -/
def run : Call → Routine Storage Unit
  | convolution conv input filter bias? => InPlace.convolution conv input filter bias?
  | pooling pool input => InPlace.pooling pool input
  | matrixProduct lhs rhs => InPlace.matrixProduct lhs rhs
  | softmax input => InPlace.softmax input
  | arithmetic op lhs rhs => InPlace.arithmetic op lhs rhs
  | unary op input => InPlace.unary op input
  | clip input low high => InPlace.clip input low high
  | isNaN input => InPlace.isNaN input
  | reshape input => InPlace.reshape input
  | transpose input perm => InPlace.transpose input perm
  | slice input start => InPlace.slice input start
  | concat inputs axis => InPlace.concat inputs axis
  | broadcast input axis => InPlace.broadcast input axis
  | splat value => InPlace.splat value
  | select cond onTrue onFalse => InPlace.select cond onTrue onFalse

/-- The kernel, on the output. -/
def kernel : Call → Tensor → Except TensorError Tensor
  | convolution conv input filter bias? => Kernel.convolution conv input filter bias?
  | pooling pool input => Kernel.pooling pool input
  | matrixProduct lhs rhs => Kernel.matrixProduct lhs rhs
  | softmax input => Kernel.softmax input
  | arithmetic op lhs rhs => Kernel.arithmetic op lhs rhs
  | unary op input => Kernel.unary op input
  | clip input low high => Kernel.clip input low high
  | isNaN input => Kernel.isNaN input
  | reshape input => Kernel.reshape input
  | transpose input perm => Kernel.transpose input perm
  | slice input start => Kernel.slice input start
  | concat inputs axis => Kernel.concat inputs axis
  | broadcast input axis => Kernel.broadcast input axis
  | splat value => fun output => .ok (Kernel.splat value output)
  | select cond onTrue onFalse => Kernel.select cond onTrue onFalse

def IsPooling (call : Call) : Prop := ∃ pool input, call = pooling pool input

theorem kernel_fillsOutput (call : Call) : Kernel.FillsOutput call.kernel := by
  cases call with
  | convolution conv input filter bias? =>
      exact (Kernel.convolution_contract conv input filter bias?).toFillsOutput
  | pooling pool input => exact Kernel.pooling_fillsOutput pool input
  | matrixProduct lhs rhs => exact (Kernel.matrixProduct_contract lhs rhs).toFillsOutput
  | softmax input => exact Kernel.softmax_fillsOutput input
  | arithmetic op lhs rhs => exact (Kernel.arithmetic_contract op lhs rhs).toFillsOutput
  | unary op input => exact (Kernel.unary_contract op input).toFillsOutput
  | clip input low high => exact (Kernel.clip_contract input low high).toFillsOutput
  | isNaN input => exact (Kernel.isNaN_contract input).toFillsOutput
  | reshape input => exact (Kernel.reshape_contract input).toFillsOutput
  | transpose input perm => exact (Kernel.transpose_contract input perm).toFillsOutput
  | slice input start => exact (Kernel.slice_contract input start).toFillsOutput
  | concat inputs axis => exact (Kernel.concat_contract inputs axis).toFillsOutput
  | broadcast input axis => exact (Kernel.broadcast_contract input axis).toFillsOutput
  | splat value => exact (Kernel.splat_contract value).toFillsOutput
  | select cond onTrue onFalse => exact (Kernel.select_contract cond onTrue onFalse).toFillsOutput

theorem run_realizes {call : Call} (hcall : ¬call.IsPooling) : Realizes call.run call.kernel := by
  cases call with
  | convolution conv input filter bias? => exact convolution_realizes conv input filter bias?
  | pooling pool input => exact absurd ⟨pool, input, rfl⟩ hcall
  | matrixProduct lhs rhs => exact matrixProduct_realizes lhs rhs
  | softmax input => exact softmax_realizes input
  | arithmetic op lhs rhs => exact arithmetic_realizes op lhs rhs
  | unary op input => exact unary_realizes op input
  | clip input low high => exact clip_realizes input low high
  | isNaN input => exact isNaN_realizes input
  | reshape input => exact reshape_realizes input
  | transpose input perm => exact transpose_realizes input perm
  | slice input start => exact slice_realizes input start
  | concat inputs axis => exact concat_realizes inputs axis
  | broadcast input axis => exact broadcast_realizes input axis
  | splat value => exact splat_realizes value
  | select cond onTrue onFalse => exact select_realizes cond onTrue onFalse

theorem run_endsAs (call : Call) (output : Tensor) :
    EndsAs output (call.kernel output) (call.run output.storage) := by
  by_cases hcall : call.IsPooling
  · obtain ⟨pool, input, rfl⟩ := hcall
    exact pooling_endsAs pool input output
  · exact .inl (run_realizes hcall output)

/-! ## Outcomes -/

section Outcomes

variable {call : Call} {output : Tensor} {left : Storage}

theorem eq_storage_of_refused {reason : TensorError}
    (hrun : call.run output.storage = .error (.refused reason) left) : left = output.storage := by
  rcases call.run_endsAs output with hends | ⟨-, rest, hfault⟩
  · rw [hrun] at hends
    cases hkernel : call.kernel output with
    | error reason' =>
        rw [hkernel] at hends
        exact (EStateM.Result.error.inj hends).2
    | ok result =>
        rw [hkernel] at hends
        cases hends
  · rw [hrun] at hfault
    cases hfault

theorem exists_result_of_ok (hrun : call.run output.storage = .ok () left) :
    ∃ result, call.kernel output = .ok result ∧ left = result.storage := by
  rcases call.run_endsAs output with hends | ⟨-, rest, hfault⟩
  · rw [hrun] at hends
    cases hkernel : call.kernel output with
    | error reason =>
        rw [hkernel] at hends
        cases hends
    | ok result =>
        rw [hkernel] at hends
        exact ⟨result, rfl, (EStateM.Result.ok.inj hends).2⟩
  · rw [hrun] at hfault
    cases hfault

theorem run_eq_ok {result : Tensor} (hkernel : call.kernel output = .ok result) :
    call.run output.storage = .ok () result.storage := by
  rcases call.run_endsAs output with hends | ⟨hfault, -⟩
  · rw [hends, hkernel, ending]
  · rw [hkernel] at hfault
    cases hfault

theorem isPooling_of_fault (hrun : call.run output.storage = .error .fault left) :
    call.IsPooling := by
  by_contra hcall
  have hends := run_realizes hcall output
  rw [hrun] at hends
  cases hkernel : call.kernel output <;> rw [hkernel] at hends <;> cases hends

end Outcomes

/-- A call that refuses leaves the storage of its output as it was.  A call that succeeds
keeps type and shape, fills every place, and gives the same for each output of that type and
shape.  No call but a pooling one ends in a fault.  Each call ends as its kernel does. -/
theorem run_allOrNothing (call : Call) (output : Tensor) :
    (∀ reason left, call.run output.storage = .error (.refused reason) left →
      left = output.storage) ∧
    (∀ left, call.run output.storage = .ok () left →
      left.dtype = output.dtype ∧ left.shape = output.shape ∧
      left.data.size = product left.shape.dims ∧
      ∀ previous : Tensor, previous.dtype = output.dtype → previous.shape = output.shape →
        call.run previous.storage = .ok () left) ∧
    (∀ left, call.run output.storage = .error .fault left → call.IsPooling) ∧
    EndsAs output (call.kernel output) (call.run output.storage) := by
  refine ⟨fun reason left => eq_storage_of_refused, ?_, fun left => isPooling_of_fault,
    call.run_endsAs output⟩
  intro left hrun
  obtain ⟨result, hkernel, rfl⟩ := exists_result_of_ok hrun
  have htype : result.type = output.type := call.kernel_fillsOutput.keepsType hkernel
  obtain ⟨hdtype, hshape⟩ := TensorType.mk.inj htype
  refine ⟨hdtype, hshape, result.size_eq, fun previous hpreviousDType hpreviousShape => ?_⟩
  have hprevious : previous.type = output.type := by
    rw [Tensor.type, Tensor.type, hpreviousDType, hpreviousShape]
  apply run_eq_ok
  rw [call.kernel_fillsOutput.ignoresContents hprevious, hkernel]

/-- A window that begins beyond the last column stops a pooling call between two writes. -/
example : ∃ left, (pooling ⟨.max, ⟨⟨1, 1⟩, ⟨1, 2⟩, ⟨0, 0, 0, 2⟩⟩⟩
    (.splat .f32 ⟨[1, 1, 1, 1]⟩ 1.0)).run (Tensor.splat .f32 ⟨[1, 1, 1, 2]⟩ 0.0).storage =
      .error .fault left :=
  ⟨_, rfl⟩

/-! ## Nodes -/

/-- The call for a node on the tensors that its operands stand for.  Variables and saves
have none. -/
def ofNode? (read : Handle → Except TensorError Tensor) :
    NodeKind → Option (Except TensorError Call)
  | .convolution input filter bias params => some do
      let bias? ← bias.mapM read
      return convolution params (← read input) (← read filter) bias?
  | .pooling input params => some do return pooling params (← read input)
  | .matrixProduct lhs rhs => some do return matrixProduct (← read lhs) (← read rhs)
  | .transpose input perm => some do return transpose (← read input) perm
  | .reshape input _ => some do return reshape (← read input)
  | .slice input start _ => some do return slice (← read input) start
  | .concat inputs axis => some do return concat (← inputs.mapM read) axis
  | .broadcast input axis _ => some do return broadcast (← read input) axis
  | .splat value _ => some do return splat value
  | .isNaN input => some do return isNaN (← read input)
  | .select cond onTrue onFalse => some do
      return select (← read cond) (← read onTrue) (← read onFalse)
  | .clip input low high => some do return clip (← read input) low high
  | .arithmetic op lhs rhs => some do return arithmetic op (← read lhs) (← read rhs)
  | .unary op input => some do return unary op (← read input)
  | .softmax input => some do return softmax (← read input)
  | .variable .. => none
  | .save .. => none

/-- The engine applies the kernel of the call for the node. -/
theorem applyKernel_eq {kind : NodeKind} {read : Handle → Except TensorError Tensor}
    {call : Except TensorError Call} (hcall : ofNode? read kind = some call) (output : Tensor) :
    Engine.applyKernel kind read output = call >>= fun call => call.kernel output := by
  cases kind <;> cases hcall <;> simp only [Engine.applyKernel, bind_assoc, pure_bind] <;> rfl

end Call

end InPlace
end NetImport
