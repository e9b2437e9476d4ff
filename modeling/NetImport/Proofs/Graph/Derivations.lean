import NetImport.Graph.Words
import NetImport.Proofs.InPlace.Concatenation
import NetImport.Proofs.InPlace.Pooling
import NetImport.Proofs.InPlace.Rows
import NetImport.Proofs.Kernel.Reduction

/-!
# Derivations that check every look

The result type of a node is derived from lists of extents by position, by a cut, and by
divisions.  A checked derivation makes each of these a step of its own, which is a fault
outside of its domain.  The checks on ranks and extents before a step keep it inside, so that
the checked derivation comes to the same result and is never at fault.
-/

namespace NetImport
namespace Typing

variable {α : Type}

instance : LawfulMonadLift (Except GraphError) (Except Stop) where
  monadLift_pure _ := rfl
  monadLift_bind result _ := by
    cases result <;> rfl

/-- A refusal is no fault. -/
theorem liftM_ne_fault (result : Except GraphError α) :
    (liftM result : Except Stop α) ≠ .error .fault := by
  cases result <;> nofun

theorem liftM_shape (result : Except TensorError α) :
    (liftM (liftM result : Except InPlace.Stop α) : Except Stop α) = liftM (derived result) := by
  cases result <;> rfl

namespace Checked

def convolutionType (x w : TensorType) (bias : Option Handle) (params : Convolution)
    (type : Handle → Except GraphError TensorType) : Except Stop TensorType := do
  expectDType "convolution" .f32 x.dtype
  expectDType "convolution" .f32 w.dtype
  let shape ← InPlace.convolutionShape params x.shape w.shape
  match bias with
  | none => return ⟨.f32, shape⟩
  | some value =>
      let b ← type value
      expectDType "convolution" .f32 b.dtype
      let outputs ← InPlace.entry w.dims 0
      expectShape "convolution (bias)" (Shape.vector outputs) b.shape
      return ⟨.f32, shape⟩

def matrixProductType (a b : TensorType) : Except Stop TensorType := do
  expectDType "matmul" .f32 a.dtype
  expectDType "matmul" .f32 b.dtype
  match a.shape.matrixProduct? b.shape with
  | some _ =>
      let rows ← InPlace.entry a.dims 0
      let columns ← InPlace.entry b.dims 1
      return ⟨.f32, Shape.matrix rows columns⟩
  | none =>
      .error (.refused (.shapeMismatch "matmul" s!"{a.shape.text} x {b.shape.text}"))

/-- The types after the first one are a cut of the list of types. -/
def concatType (types : List TensorType) (axis : Nat) : Except Stop TensorType :=
  match types.head? with
  | none => .error (.refused (.invalidArgument "concat" "no inputs"))
  | some first => do
      let others ← InPlace.cut types.toArray 1 types.length
      (others.toList.forM fun type => expectDType "concat" first.dtype type.dtype :
        Except GraphError Unit)
      return ⟨first.dtype, ← InPlace.concatShape axis (types.map TensorType.shape)⟩

def infer (kind : NodeKind) (defined : Array Node) : Except Stop (List TensorType) := do
  let type := operand defined
  match kind with
  | .convolution input filter bias params =>
      return [← convolutionType (← type input) (← type filter) bias params type]
  | .pooling input params =>
      let x ← type input
      expectDType "pool" .f32 x.dtype
      return [⟨.f32, ← InPlace.poolingShape params x.shape⟩]
  | .matrixProduct lhs rhs => return [← matrixProductType (← type lhs) (← type rhs)]
  | .transpose input perm =>
      let x ← type input
      return [⟨x.dtype, ← InPlace.transposedShape x.shape perm⟩]
  | .concat inputs axis => return [← concatType (← (inputs.mapM type : Except GraphError (List TensorType))) axis]
  | .broadcast input axis dims =>
      let x ← type input
      InPlace.checkBroadcast axis x.shape ⟨dims⟩
      return [⟨x.dtype, ⟨dims⟩⟩]
  | kind => Typing.infer kind defined

theorem convolutionType_eq (x w : TensorType) (bias : Option Handle) (params : Convolution)
    (type : Handle → Except GraphError TensorType) :
    convolutionType x w bias params type =
      liftM (Typing.convolutionType x w bias params type) := by
  simp only [convolutionType, Typing.convolutionType, InPlace.convolutionShape_eq, liftM_shape,
    liftM_bind]
  cases hshape : params.outputShape x.shape w.shape with
  | error reason => rfl
  | ok shape =>
      cases bias with
      | none => rfl
      | some value =>
          -- a filter that has been convolved with has four extents
          obtain ⟨-, outputs, depth, height, width, hw⟩ :=
            Convolution.dims_of_outputShape hshape
          have hfirst : InPlace.entry w.dims 0 = .ok (w.dims.headD 0) := by
            rw [TensorType.dims, hw]
            rfl
          rw [hfirst]
          simp only [liftM_bind]
          rfl

theorem matrixProductType_eq (a b : TensorType) :
    matrixProductType a b = liftM (Typing.matrixProductType a b) := by
  simp only [matrixProductType, Typing.matrixProductType, liftM_bind]
  cases hextents : a.shape.matrixProduct? b.shape with
  | none => rfl
  | some extents =>
      obtain ⟨m, k, n, rfl, ha, hb⟩ := InPlace.dims_of_matrixProduct? hextents
      have hrows : InPlace.entry a.dims 0 = .ok m := by
        rw [TensorType.dims, ha]
        rfl
      have hcolumns : InPlace.entry b.dims 1 = .ok n := by
        rw [TensorType.dims, hb]
        rfl
      rw [hrows, hcolumns]
      rfl

theorem concatType_eq (types : List TensorType) (axis : Nat) :
    concatType types axis = liftM (Typing.concatType types axis) := by
  cases types with
  | nil => rfl
  | cons first others =>
      have hothers : InPlace.cut (first :: others).toArray 1 (first :: others).length =
          .ok others.toArray := by
        simp [InPlace.cut]
      simp only [concatType, List.head?_cons, hothers, InPlace.concatShape_eq, liftM_shape,
        Typing.concatType, liftM_bind]
      rfl

theorem infer_eq (kind : NodeKind) (defined : Array Node) :
    infer kind defined = liftM (Typing.infer kind defined) := by
  cases kind with
  | convolution input filter bias params =>
      simp only [infer, Typing.infer, convolutionType_eq, liftM_bind]
      rfl
  | pooling input params =>
      simp only [infer, Typing.infer, InPlace.poolingShape_eq, liftM_shape, liftM_bind]
      rfl
  | matrixProduct lhs rhs =>
      simp only [infer, Typing.infer, matrixProductType_eq, liftM_bind]
      rfl
  | transpose input perm =>
      simp only [infer, Typing.infer, InPlace.transposedShape_eq, liftM_shape, liftM_bind]
      rfl
  | concat inputs axis =>
      simp only [infer, Typing.infer, concatType_eq, liftM_bind]
      rfl
  | broadcast input axis dims =>
      simp only [infer, Typing.infer, InPlace.checkBroadcast_eq, liftM_shape, liftM_bind]
      rfl
  | _ => rfl

end Checked
end Typing
end NetImport
