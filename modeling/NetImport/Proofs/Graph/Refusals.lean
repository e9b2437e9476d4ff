import NetImport.Graph.Basic
import NetImport.Proofs.Refusals

/-!
# Refusals of typing

A node whose operands have values is refused for what it asks of their types, and never
because a value is missing.
-/

namespace NetImport

/-- Any cause but a missing value. -/
def GraphError.FindsValues (error : GraphError) : Prop :=
  ∀ value, error ≠ .unknownValue value

theorem GraphError.findsValues_ofTensorError (error : TensorError) :
    (GraphError.ofTensorError error).FindsValues := by
  intro value
  cases error <;> nofun

namespace Typing

variable {defined : Array Node}

theorem expectDType_refuses (op : String) (expected actual : DType) :
    RefusesOnly GraphError.FindsValues (expectDType op expected actual) :=
  refusesOnly_ite (fun _ => refusesOnly_ok _) fun _ => refusesOnly_error nofun

theorem expectShape_refuses (op : String) (expected actual : Shape) :
    RefusesOnly GraphError.FindsValues (expectShape op expected actual) :=
  refusesOnly_ite (fun _ => refusesOnly_ok _) fun _ => refusesOnly_error nofun

theorem derived_refuses {α : Type} (result : Except TensorError α) :
    RefusesOnly GraphError.FindsValues (derived result) := by
  cases result with
  | ok value => exact refusesOnly_ok value
  | error error => exact refusesOnly_error (GraphError.findsValues_ofTensorError error)

theorem variableType_refuses (role : VariableRole) (declared : TensorType) :
    RefusesOnly GraphError.FindsValues (variableType role declared) := by
  cases role with
  | placeholder => exact refusesOnly_ok declared
  | output => exact refusesOnly_ok declared
  | constant tensor =>
      exact refusesOnly_ite (fun _ => refusesOnly_ok _) fun _ => refusesOnly_error nofun

theorem convolutionType_refuses {x w : TensorType} {bias : Option Handle} {params : Convolution}
    {type : Handle → Except GraphError TensorType}
    (hbias : ∀ value ∈ bias, ∃ t, type value = .ok t) :
    RefusesOnly GraphError.FindsValues (convolutionType x w bias params type) := by
  refine refusesOnly_bind (expectDType_refuses ..) fun _ _ => ?_
  refine refusesOnly_bind (expectDType_refuses ..) fun _ _ => ?_
  refine refusesOnly_bind (derived_refuses _) fun shape _ => ?_
  cases bias with
  | none => exact refusesOnly_ok _
  | some value =>
      obtain ⟨t, ht⟩ := hbias value rfl
      refine refusesOnly_bind (refusesOnly_of_eq_ok ht) fun _ _ => ?_
      refine refusesOnly_bind (expectDType_refuses ..) fun _ _ => ?_
      exact refusesOnly_bind (expectShape_refuses ..) fun _ _ => refusesOnly_ok _

theorem matrixProductType_refuses (a b : TensorType) :
    RefusesOnly GraphError.FindsValues (matrixProductType a b) := by
  refine refusesOnly_bind (expectDType_refuses ..) fun _ _ => ?_
  refine refusesOnly_bind (expectDType_refuses ..) fun _ _ => ?_
  split
  · exact refusesOnly_ok _
  · exact refusesOnly_error nofun

theorem reshapeType_refuses (x : TensorType) (dims : List Nat) :
    RefusesOnly GraphError.FindsValues (reshapeType x dims) :=
  refusesOnly_ite (fun _ => refusesOnly_ok _) fun _ => refusesOnly_error nofun

theorem sliceType_refuses (x : TensorType) (start size : List Nat) :
    RefusesOnly GraphError.FindsValues (sliceType x start size) :=
  refusesOnly_ite (fun _ => refusesOnly_ok _) fun _ => refusesOnly_error nofun

theorem concatType_refuses (types : List TensorType) (axis : Nat) :
    RefusesOnly GraphError.FindsValues (concatType types axis) := by
  cases types with
  | nil => exact refusesOnly_error nofun
  | cons first others =>
      refine refusesOnly_bind (refusesOnly_forM fun _ _ => expectDType_refuses ..) fun _ _ => ?_
      exact refusesOnly_bind (derived_refuses _) fun _ _ => refusesOnly_ok _

theorem selectType_refuses (c a b : TensorType) :
    RefusesOnly GraphError.FindsValues (selectType c a b) := by
  refine refusesOnly_bind (expectDType_refuses ..) fun _ _ => ?_
  refine refusesOnly_bind (expectDType_refuses ..) fun _ _ => ?_
  refine refusesOnly_bind (expectShape_refuses ..) fun _ _ => ?_
  exact refusesOnly_bind (expectShape_refuses ..) fun _ _ => refusesOnly_ok _

theorem clipType_refuses (x : TensorType) (low high : Float) :
    RefusesOnly GraphError.FindsValues (clipType x low high) := by
  refine refusesOnly_ite (fun _ => refusesOnly_error nofun) fun _ => ?_
  exact refusesOnly_ite (fun _ => refusesOnly_error nofun) fun _ => refusesOnly_ok _

theorem arithmeticType_refuses (op : ArithmeticOp) (a b : TensorType) :
    RefusesOnly GraphError.FindsValues (arithmeticType op a b) := by
  refine refusesOnly_bind (expectDType_refuses ..) fun _ _ => ?_
  refine refusesOnly_bind (expectDType_refuses ..) fun _ _ => ?_
  exact refusesOnly_bind (expectShape_refuses ..) fun _ _ => refusesOnly_ok _

theorem softmaxType_refuses (x : TensorType) :
    RefusesOnly GraphError.FindsValues (softmaxType x) := by
  refine refusesOnly_bind (expectDType_refuses ..) fun _ _ => ?_
  exact refusesOnly_ite (fun _ => refusesOnly_ok _) fun _ => refusesOnly_error nofun

/-- A save may miss its target, and any other node only its operands. -/
theorem infer_refuses {kind : NodeKind} (hsave : ∀ input output, kind ≠ .save input output)
    (hoperands : ∀ value ∈ kind.operands, ∃ type, operand defined value = .ok type) :
    RefusesOnly GraphError.FindsValues (infer kind defined) := by
  have hfound (value : Handle) (hmem : value ∈ kind.operands) :
      RefusesOnly GraphError.FindsValues (operand defined value) := by
    obtain ⟨type, htype⟩ := hoperands value hmem
    exact refusesOnly_of_eq_ok htype
  cases kind with
  | «variable» role declared => exact refusesOnly_map (variableType_refuses role declared) _
  | convolution input filter bias params =>
      refine refusesOnly_bind (hfound input (by simp [NodeKind.operands])) fun _ _ => ?_
      refine refusesOnly_bind (hfound filter (by simp [NodeKind.operands])) fun _ _ => ?_
      refine refusesOnly_map (convolutionType_refuses fun value hvalue => ?_) _
      obtain rfl := Option.mem_def.mp hvalue
      exact hoperands value (by simp [NodeKind.operands])
  | pooling input params =>
      refine refusesOnly_bind (hfound input (by simp [NodeKind.operands])) fun _ _ => ?_
      refine refusesOnly_bind (expectDType_refuses ..) fun _ _ => ?_
      exact refusesOnly_map (derived_refuses _) _
  | matrixProduct lhs rhs =>
      refine refusesOnly_bind (hfound lhs (by simp [NodeKind.operands])) fun _ _ => ?_
      refine refusesOnly_bind (hfound rhs (by simp [NodeKind.operands])) fun _ _ => ?_
      exact refusesOnly_map (matrixProductType_refuses _ _) _
  | transpose input perm =>
      refine refusesOnly_bind (hfound input (by simp [NodeKind.operands])) fun _ _ => ?_
      exact refusesOnly_map (derived_refuses _) _
  | reshape input dims =>
      refine refusesOnly_bind (hfound input (by simp [NodeKind.operands])) fun _ _ => ?_
      exact refusesOnly_map (reshapeType_refuses _ _) _
  | slice input start size =>
      refine refusesOnly_bind (hfound input (by simp [NodeKind.operands])) fun _ _ => ?_
      exact refusesOnly_map (sliceType_refuses _ _ _) _
  | concat inputs axis =>
      refine refusesOnly_bind (refusesOnly_mapM fun value hmem => hfound value hmem) fun _ _ => ?_
      exact refusesOnly_map (concatType_refuses _ _) _
  | broadcast input axis dims =>
      refine refusesOnly_bind (hfound input (by simp [NodeKind.operands])) fun _ _ => ?_
      exact refusesOnly_bind (derived_refuses _) fun _ _ => refusesOnly_ok _
  | splat value declared => exact refusesOnly_ok _
  | isNaN input =>
      refine refusesOnly_bind (hfound input (by simp [NodeKind.operands])) fun _ _ => ?_
      exact refusesOnly_bind (expectDType_refuses ..) fun _ _ => refusesOnly_ok _
  | select cond onTrue onFalse =>
      refine refusesOnly_bind (hfound cond (by simp [NodeKind.operands])) fun _ _ => ?_
      refine refusesOnly_bind (hfound onTrue (by simp [NodeKind.operands])) fun _ _ => ?_
      refine refusesOnly_bind (hfound onFalse (by simp [NodeKind.operands])) fun _ _ => ?_
      exact refusesOnly_map (selectType_refuses _ _ _) _
  | clip input low high =>
      refine refusesOnly_bind (hfound input (by simp [NodeKind.operands])) fun _ _ => ?_
      exact refusesOnly_map (clipType_refuses _ _ _) _
  | arithmetic op lhs rhs =>
      refine refusesOnly_bind (hfound lhs (by simp [NodeKind.operands])) fun _ _ => ?_
      refine refusesOnly_bind (hfound rhs (by simp [NodeKind.operands])) fun _ _ => ?_
      exact refusesOnly_map (arithmeticType_refuses _ _ _) _
  | unary op input =>
      refine refusesOnly_bind (hfound input (by simp [NodeKind.operands])) fun _ _ => ?_
      exact refusesOnly_bind (expectDType_refuses ..) fun _ _ => refusesOnly_ok _
  | softmax input =>
      refine refusesOnly_bind (hfound input (by simp [NodeKind.operands])) fun _ _ => ?_
      exact refusesOnly_map (softmaxType_refuses _) _
  | save input output => exact absurd rfl (hsave input output)

end Typing

theorem Graph.append_refuses {graph : Graph} {name : String} {kind : NodeKind}
    (hsave : ∀ input output, kind ≠ .save input output)
    (hoperands : ∀ value ∈ kind.operands, ∃ type, graph.valueType value = .ok type) :
    RefusesOnly GraphError.FindsValues (graph.append name kind) := by
  refine refusesOnly_bind (Typing.infer_refuses hsave hoperands) fun results _ => ?_
  exact refusesOnly_ite (fun _ => refusesOnly_error nofun) fun _ => refusesOnly_ok _

end NetImport
