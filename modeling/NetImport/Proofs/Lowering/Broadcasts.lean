import NetImport.Proofs.Kernel.Broadcasting
import NetImport.Proofs.Lowering.OneOutput

/-!
# Arithmetic with an explicit broadcast

Arithmetic on operands of one shape is a node by itself.  With the broadcast flag the right
operand may be laid on a run of the axes of the left one, which a node before does.
-/

namespace NetImport

/-- What an operator of an arithmetic kind computes of two elements. -/
def OperatorKind.arithmetic? : OperatorKind → Option ArithmeticOp
  | .add => some .add
  | .sub => some .sub
  | .mul => some .mul
  | .div => some .div
  | _ => none

namespace Lowering

variable {op : Operator} {kind : OperatorKind} {fn : ArithmeticOp} {work last : Workspace}
  {lhs rhs : Handle} {a b : List Nat} {flag : Bool} {axis : Int} {name : String}

theorem ofKind_of_arithmetic? (hfn : kind.arithmetic? = some fn) :
    ofKind kind op = arithmetic fn op := by
  cases kind <;> cases hfn <;> rfl

/-- The axis of the left operand that the first axis of the right one is laid on.  Minus
one stands for no axis, which leaves the last ones. -/
def broadcastPlace (axis : Int) (a b : List Nat) : Nat :=
  if axis = -1 then a.length - b.length else axis.toNat

/-- There are as many axes from the place on as the right operand has. -/
structure Lies (axis : Int) (a b : List Nat) : Prop where
  axis_valid : -1 ≤ axis
  inside : broadcastPlace axis a b + b.length ≤ a.length

/-- The extents of the left operand that those of the right one are laid on. -/
def coveredRun (axis : Int) (a b : List Nat) : List Nat :=
  (a.drop (broadcastPlace axis a b)).take b.length

/-- The right operand can be broadcast to the extents of the left one. -/
structure Broadcasts (axis : Int) (a b : List Nat) : Prop extends Lies axis a b where
  stretches : Kernel.Stretches b (coveredRun axis a b)

theorem checkBroadcast_iff (hlies : Lies axis a b) :
    Kernel.checkBroadcast (broadcastPlace axis a b) ⟨b⟩ ⟨a⟩ = .ok () ↔ Broadcasts axis a b := by
  rw [Kernel.checkBroadcast_eq_ok_iff]
  constructor
  · intro hfits
    exact ⟨hlies, hfits.2⟩
  · intro hbroadcasts
    exact ⟨hlies.inside, hbroadcasts.stretches⟩

/-! ## Steps -/

theorem run_broadcastAxis (hlies : Lies axis a b) :
    (broadcastAxis op axis a b).run.run work = (.ok (broadcastPlace axis a b), work) := by
  obtain ⟨hvalid, hinside⟩ := hlies
  have hrank : ¬a.length < b.length := by omega
  have hfits : ¬a.length < broadcastPlace axis a b + b.length := by omega
  unfold broadcastPlace at hfits ⊢
  unfold broadcastAxis
  by_cases htrailing : axis = -1
  · rw [if_pos htrailing] at hfits ⊢
    have hle : b.length ≤ a.length := by omega
    rw [if_neg hrank, if_pos htrailing, run_bind, run_difference hle]
    dsimp only
    rw [if_neg hfits]
    rfl
  · have hnatural : ¬axis < 0 := by omega
    rw [if_neg htrailing] at hfits ⊢
    rw [if_neg hrank, if_neg htrailing, if_neg hnatural, pure_bind]
    dsimp only
    rw [if_neg hfits]
    rfl

theorem broadcastAxis_fails (hlies : ¬Lies axis a b) :
    ∃ error, (broadcastAxis op axis a b).run.run work = (.error error, work) := by
  unfold broadcastAxis
  by_cases hrank : a.length < b.length
  · rw [if_pos hrank]
    exact ⟨_, rfl⟩
  · by_cases htrailing : axis = -1
    · have hplace : broadcastPlace axis a b = a.length - b.length := if_pos htrailing
      exact absurd ⟨by omega, by omega⟩ hlies
    · have hplace : broadcastPlace axis a b = axis.toNat := if_neg htrailing
      rw [if_neg hrank, if_neg htrailing]
      by_cases hnegative : axis < 0
      · rw [if_pos hnegative]
        exact ⟨_, rfl⟩
      · have hbeyond : a.length < axis.toNat + b.length := by
          by_contra hinside
          exact hlies ⟨by omega, by omega⟩
        rw [if_neg hnegative, pure_bind]
        dsimp only
        rw [if_pos hbeyond]
        exact ⟨_, rfl⟩

/-- The axis is found when the right operand has a place, whatever its extents are. -/
theorem succeedsIff_broadcastAxis :
    SucceedsIff (broadcastAxis op axis a b) work (Lies axis a b) fun place last =>
      Lies axis a b ∧ place = broadcastPlace axis a b ∧ last = work := by
  constructor
  · exact fun hlies => ⟨_, _, run_broadcastAxis hlies⟩
  · intro place last hrun
    by_cases hlies : Lies axis a b
    · obtain ⟨hplace, rfl⟩ := Prod.mk.inj (hrun.symm.trans (run_broadcastAxis hlies))
      exact ⟨hlies, .refl, hlies, Except.ok.inj hplace, rfl⟩
    · obtain ⟨error, herror⟩ := @broadcastAxis_fails op work _ _ _ hlies
      cases hrun.symm.trans herror

/-- A value of the last workspace holds the elements of a right operand of the first, laid
on the extents of the left one. -/
structure IsBroadcast (work : Workspace) (rhs : Handle) (axis : Int) (a b : List Nat)
    (value : Handle) (last : Workspace) : Prop where
  typed : last.graph.valueType value = .ok ⟨.f32, ⟨a⟩⟩
  evaluates : ∀ bindings y, work.HasValue bindings rhs ⟨.f32, ⟨b⟩⟩ y →
    ∃ result, last.HasValue bindings value ⟨.f32, ⟨a⟩⟩ result ∧
      ∀ coords, inBounds a coords → ∃ coords',
        Kernel.Follows b (broadcastPlace axis a b) coords coords' ∧
        result.at? .f32 coords = y.at? .f32 coords'

theorem succeedsIff_broadcast (hlies : Lies axis a b)
    (hrhs : work.graph.valueType rhs = .ok ⟨.f32, ⟨b⟩⟩) :
    SucceedsIff (build op fun graph => graph.broadcast name rhs (broadcastPlace axis a b) a) work
      (Broadcasts axis a b) (IsBroadcast work rhs axis a b) := by
  have htype : Typing.operand work.graph.nodes rhs = .ok ⟨.f32, ⟨b⟩⟩ := hrhs
  refine (@succeedsIff_build work (Broadcasts axis a b) op _ name
    (.broadcast rhs (broadcastPlace axis a b) a) ⟨.f32, ⟨a⟩⟩ (fun _ => rfl) trivial ?_).mono ?_
  · intro types
    rw [← checkBroadcast_iff hlies]
    simp [Typing.infer, htype, @eq_comm _ _ types, Unique.exists_iff]
  · intro value last hbroadcasts hcomputes hvalue
    refine ⟨hvalue.1, fun bindings y hy => ?_⟩
    obtain ⟨result, hresult, hown, hcells⟩ :=
      Kernel.exists_broadcast hy.type_eq ((checkBroadcast_iff hlies).mpr hbroadcasts)
    refine ⟨result, ⟨?_, hown⟩, fun coords hcoords => ?_⟩
    · rw [hvalue.2, Engine.applyKernel, hy.evaluates]
      exact hresult
    · obtain ⟨coords', hfollows, -, hcell⟩ := hcells coords hcoords
      exact ⟨coords', hfollows, hcell⟩

/-- A value of the last workspace combines the elements of two values of the first. -/
structure IsCombination (fn : ArithmeticOp) (work : Workspace) (lhs rhs : Handle) (a : List Nat)
    (value : Handle) (last : Workspace) : Prop where
  typed : last.graph.valueType value = .ok ⟨.f32, ⟨a⟩⟩
  evaluates : ∀ bindings x z, work.HasValue bindings lhs ⟨.f32, ⟨a⟩⟩ x →
    work.HasValue bindings rhs ⟨.f32, ⟨a⟩⟩ z →
    ∃ result, last.HasValue bindings value ⟨.f32, ⟨a⟩⟩ result ∧
      ∀ coords, inBounds a coords → ∃ l r, x.at? .f32 coords = some l ∧
        z.at? .f32 coords = some r ∧ result.at? .f32 coords = some (fn.apply l r)

theorem succeedsIff_arithmetic (hlhs : work.graph.valueType lhs = .ok ⟨.f32, ⟨a⟩⟩)
    (hrhs : work.graph.valueType rhs = .ok ⟨.f32, ⟨b⟩⟩) :
    SucceedsIff (build op fun graph => graph.arithmetic name fn lhs rhs) work (a = b)
      (IsCombination fn work lhs rhs a) := by
  have hleft : Typing.operand work.graph.nodes lhs = .ok ⟨.f32, ⟨a⟩⟩ := hlhs
  have hright : Typing.operand work.graph.nodes rhs = .ok ⟨.f32, ⟨b⟩⟩ := hrhs
  refine (@succeedsIff_build work (a = b) op _ name (.arithmetic fn lhs rhs) ⟨.f32, ⟨a⟩⟩
    (fun _ => rfl) trivial ?_).mono ?_
  · intro types
    simp [Typing.infer, hleft, hright, Typing.arithmeticType, @eq_comm _ _ types]
  · intro value last _ _ hvalue
    refine ⟨hvalue.1, fun bindings x z hx hz => ?_⟩
    obtain ⟨result, hresult, hown, hcells⟩ := Kernel.exists_arithmetic fn hx.type_eq hz.type_eq
    refine ⟨result, ⟨?_, hown⟩, hcells⟩
    rw [hvalue.2, Engine.applyKernel, hx.evaluates, hz.evaluates]
    exact hresult

/-! ## Operators -/

/-- The lowering of arithmetic succeeds on operands of one shape, and with the flag on a right
operand that can be broadcast. -/
def Combines (flag : Bool) (axis : Int) (a b : List Nat) : Prop :=
  a = b ∨ flag = true ∧ Broadcasts axis a b

/-- Coordinates of the right operand that belong to coordinates of the left one. -/
def Aligned (axis : Int) (a b coords coords' : List Nat) : Prop :=
  if a = b then coords' = coords
  else Kernel.Follows b (broadcastPlace axis a b) coords coords'

/-- A value of the last workspace combines each element of the left operand with one of the
right operand. -/
structure IsArithmetic (fn : ArithmeticOp) (work : Workspace) (lhs rhs : Handle) (axis : Int)
    (a b : List Nat) (value : Handle) (last : Workspace) : Prop where
  typed : last.graph.valueType value = .ok ⟨.f32, ⟨a⟩⟩
  evaluates : ∀ bindings x y, work.HasValue bindings lhs ⟨.f32, ⟨a⟩⟩ x →
    work.HasValue bindings rhs ⟨.f32, ⟨b⟩⟩ y →
    ∃ result, last.HasValue bindings value ⟨.f32, ⟨a⟩⟩ result ∧
      ∀ coords, inBounds a coords → ∃ coords' l r, Aligned axis a b coords coords' ∧
        x.at? .f32 coords = some l ∧ y.at? .f32 coords' = some r ∧
        result.at? .f32 coords = some (fn.apply l r)

theorem isArithmetic_of_isCombination {value : Handle}
    (hvalue : IsCombination fn work lhs rhs a value last) :
    IsArithmetic fn work lhs rhs axis a a value last := by
  refine ⟨hvalue.typed, fun bindings x y hx hy => ?_⟩
  obtain ⟨result, hresult, hcells⟩ := hvalue.evaluates bindings x y hx hy
  refine ⟨result, hresult, fun coords hcoords => ?_⟩
  obtain ⟨l, r, hl, hr, hcell⟩ := hcells coords hcoords
  have haligned : Aligned axis a a coords coords := by
    rw [Aligned, if_pos rfl]
  exact ⟨coords, l, r, haligned, hl, hr, hcell⟩

theorem isArithmetic_of_isBroadcast {next : Workspace} {row value : Handle} (hshape : a ≠ b)
    (hnext : work.Computes next) (hrow : IsBroadcast work rhs axis a b row next)
    (hvalue : IsCombination fn next lhs row a value last) :
    IsArithmetic fn work lhs rhs axis a b value last := by
  refine ⟨hvalue.typed, fun bindings x y hx hy => ?_⟩
  obtain ⟨z, hz, hsources⟩ := hrow.evaluates bindings y hy
  obtain ⟨result, hresult, hcells⟩ := hvalue.evaluates bindings x z (hx.mono hnext) hz
  refine ⟨result, hresult, fun coords hcoords => ?_⟩
  obtain ⟨coords', hfollows, hsource⟩ := hsources coords hcoords
  obtain ⟨l, r, hl, hr, hcell⟩ := hcells coords hcoords
  have haligned : Aligned axis a b coords coords' := by
    rwa [Aligned, if_neg hshape]
  exact ⟨coords', l, r, haligned, hl, hsource.symm.trans hr, hcell⟩

/-- The node that combines the operands is bound to the output. -/
theorem bindsIff_combination {a' : List Nat} {post : Handle → Workspace → Prop}
    (hlhs : work.graph.valueType lhs = .ok ⟨.f32, ⟨a⟩⟩)
    (hrhs : work.graph.valueType rhs = .ok ⟨.f32, ⟨a'⟩⟩)
    (hpost : ∀ {value last}, a = a' → IsCombination fn work lhs rhs a value last →
      post value last) :
    BindsIff op
      (build op (fun graph => graph.arithmetic op.label fn lhs rhs) >>= bindOutput op 0) work
      (a = a') post := by
  refine (bindsIff_bind_bindOutput (succeedsIff_arithmetic hlhs hrhs) ?_).mono hpost
  intro value next env hvalue
  refine ⟨hvalue.typed, fun bindings x z hx hz => ?_⟩
  obtain ⟨result, hresult, hcells⟩ := hvalue.evaluates bindings x z hx hz
  exact ⟨result, ⟨hresult.evaluates, hresult.type_eq⟩, hcells⟩

theorem bindsIff_arithmetic (hlhs : work.HasInput op 0 lhs ⟨.f32, ⟨a⟩⟩)
    (hrhs : work.HasInput op 1 rhs ⟨.f32, ⟨b⟩⟩) (hflag : op.flagArg "broadcast" = .ok flag)
    (haxis : op.intArg "axis" (-1) = .ok axis) :
    BindsIff op (arithmetic fn op) work (Combines flag axis a b)
      (IsArithmetic fn work lhs rhs axis a b) := by
  unfold arithmetic
  refine bindsIff_bind_of_run (run_ofExcept hflag) ?_
  refine bindsIff_bind_of_run (run_ofExcept haxis) ?_
  refine bindsIff_bind_of_run (run_input hlhs) ?_
  refine bindsIff_bind_of_run (run_input hrhs) ?_
  have hleft : (dimsOf op lhs).run.run work = (.ok a, work) := run_dimsOf hlhs.typed
  have hright : (dimsOf op rhs).run.run work = (.ok b, work) := run_dimsOf hrhs.typed
  refine bindsIff_bind_of_run hleft ?_
  refine bindsIff_bind_of_run hright ?_
  by_cases hlaid : flag = true ∧ a ≠ b
  · rw [if_pos hlaid]
    have hcombines : Lies axis a b ∧ Broadcasts axis a b ∧ a = a ↔ Combines flag axis a b := by
      unfold Combines
      constructor
      · exact fun hall => .inr ⟨hlaid.1, hall.2.1⟩
      · rintro (hshape | ⟨-, hbroadcasts⟩)
        · exact absurd hshape hlaid.2
        · exact ⟨hbroadcasts.toLies, hbroadcasts, rfl⟩
    refine BindsIff.of_iff (bindsIff_bind succeedsIff_broadcastAxis ?_) hcombines
    rintro place _ - ⟨hlies, rfl, rfl⟩
    refine bindsIff_bind (succeedsIff_broadcast hlies hrhs.typed) ?_
    intro row next hnext hrow
    refine bindsIff_combination (hnext.valueType_eq hlhs.typed) hrow.typed ?_
    intro value last _ hvalue
    exact isArithmetic_of_isBroadcast hlaid.2 hnext hrow hvalue
  · have hcombines : a = b ↔ Combines flag axis a b := by
      unfold Combines
      constructor
      · exact .inl
      · rintro (hshape | ⟨hon, -⟩)
        · exact hshape
        · by_contra hshape
          exact hlaid ⟨hon, hshape⟩
    rw [if_neg hlaid, pure_bind]
    refine BindsIff.of_iff (bindsIff_combination hlhs.typed hrhs.typed ?_) hcombines
    rintro value last rfl hvalue
    exact isArithmetic_of_isCombination hvalue

/-- An arithmetic operator that lowers has operands of one shape, or the flag and a right
operand that lies on a run of the axes of the left one.  Its output combines the elements of
the left operand with those of the right one at the same axes. -/
theorem broadcast_arithmetic (hkind : OperatorKind.parse? op.kind = some kind)
    (hfn : kind.arithmetic? = some fn) (hlhs : work.HasInput op 0 lhs ⟨.f32, ⟨a⟩⟩)
    (hrhs : work.HasInput op 1 rhs ⟨.f32, ⟨b⟩⟩)
    (hrun : (operator op).run.run work = (.ok (), last)) :
    ∃ flag axis name value, op.flagArg "broadcast" = .ok flag ∧
      op.intArg "axis" (-1) = .ok axis ∧ Combines flag axis a b ∧
      op.outputs[0]? = some name ∧ last.env.get? name = some value ∧
      IsArithmetic fn work lhs rhs axis a b value last := by
  rw [operator_eq hkind, ofKind_of_arithmetic? hfn] at hrun
  have hread := hrun
  unfold arithmetic at hread
  obtain ⟨flag, hflag, hread⟩ := run_ofExcept_bind_eq_ok_iff.mp hread
  obtain ⟨axis, haxis, -⟩ := run_ofExcept_bind_eq_ok_iff.mp hread
  obtain ⟨hcombines, name, value, hname, hvalue, hresult⟩ :=
    (bindsIff_arithmetic hlhs hrhs hflag haxis).ensures hrun
  exact ⟨flag, axis, name, value, hflag, haxis, hcombines, hname, hvalue, hresult⟩

/-- Adds an operand to the last axes of another one. -/
def trailingSum (lhs rhs : String) : Operator :=
  ⟨"Add", [lhs, rhs], ["y"], none, ⟨[("broadcast", .int 1)], List.pairwise_singleton _ _⟩⟩

/-- The workspace with a matrix, one of its rows, and a single place. -/
def summands : Workspace where
  graph := ⟨"sums", #[
    ⟨"x", .variable .placeholder ⟨.f32, ⟨[2, 3]⟩⟩, [⟨.f32, ⟨[2, 3]⟩⟩]⟩,
    ⟨"b", .variable .placeholder ⟨.f32, ⟨[3]⟩⟩, [⟨.f32, ⟨[3]⟩⟩]⟩,
    ⟨"c", .variable .placeholder ⟨.f32, ⟨[1]⟩⟩, [⟨.f32, ⟨[1]⟩⟩]⟩]⟩
  env := ⟨[("x", .first 0), ("b", .first 1), ("c", .first 2)], by decide⟩

def summandBindings : Bindings :=
  .ofList [("x", Tensor.zeros .f32 ⟨[2, 3]⟩), ("b", Tensor.zeros .f32 ⟨[3]⟩),
    ("c", Tensor.zeros .f32 ⟨[1]⟩)]

/-- The row is added to each row of the matrix. -/
theorem summands_broadcast_arithmetic :
    ∃ last value result,
      (operator (trailingSum "x" "b")).run.run summands = (.ok (), last) ∧
      last.env.get? "y" = some value ∧
      last.HasValue summandBindings value ⟨.f32, ⟨[2, 3]⟩⟩ result ∧
      ∀ i < 2, ∀ j < 3, ∃ l r,
        (Tensor.zeros .f32 ⟨[2, 3]⟩).at? .f32 [i, j] = some l ∧
        (Tensor.zeros .f32 ⟨[3]⟩).at? .f32 [j] = some r ∧
        result.at? .f32 [i, j] = some (l + r) := by
  have hx : summands.HasValue summandBindings (.first 0) ⟨.f32, ⟨[2, 3]⟩⟩
      (Tensor.zeros .f32 ⟨[2, 3]⟩) := ⟨(Graph.evaluate_eq _ _ rfl).trans rfl, rfl⟩
  have hb : summands.HasValue summandBindings (.first 1) ⟨.f32, ⟨[3]⟩⟩
      (Tensor.zeros .f32 ⟨[3]⟩) := ⟨(Graph.evaluate_eq _ _ rfl).trans rfl, rfl⟩
  have hrun : ∃ last, (operator (trailingSum "x" "b")).run.run summands = (.ok (), last) :=
    ⟨_, rfl⟩
  obtain ⟨last, hrun⟩ := hrun
  obtain ⟨flag, axis, name, value, -, haxis, -, hname, hvalue, hresult⟩ :=
    @broadcast_arithmetic (trailingSum "x" "b") .add .add summands last (.first 0) (.first 1)
      [2, 3] [3] rfl rfl ⟨⟨"x", rfl, rfl⟩, rfl⟩ ⟨⟨"b", rfl, rfl⟩, rfl⟩ hrun
  obtain rfl : "y" = name := Option.some.inj hname
  obtain rfl : -1 = axis := Except.ok.inj haxis
  obtain ⟨result, htensor, hcells⟩ := hresult.evaluates summandBindings _ _ hx hb
  refine ⟨last, value, result, hrun, hvalue, htensor, fun i hi j hj => ?_⟩
  obtain ⟨coords', l, r, haligned, hl, hr, hcell⟩ := hcells [i, j] (by simp [inBounds, hi, hj])
  -- the place is one, so that the row is read at the column
  rw [Aligned, if_neg (by decide)] at haligned
  obtain ⟨c, rfl⟩ := List.length_eq_one_iff.mp haligned.length_eq
  obtain rfl : c = j := Option.some.inj (haligned.getElem?_eq 0 3 rfl)
  exact ⟨l, r, hl, hr, hcell⟩

/-! ## Extents of one -/

/-- The right operand has the extents of the axes that it is laid on. -/
structure Matches (axis : Int) (a b : List Nat) : Prop extends Lies axis a b where
  run_eq : b = coveredRun axis a b

/-- The right operand has a single place along an axis on which the left one has not. -/
def StretchesUnit (axis : Int) (a b : List Nat) : Prop :=
  Broadcasts axis a b ∧
    ∃ i t : Nat, b[i]? = some 1 ∧ (coveredRun axis a b)[i]? = some t ∧ t ≠ 1

theorem stretches_refl (dims : List Nat) : Kernel.Stretches dims dims :=
  List.forall₂_same.mpr fun _ _ => .inl rfl

theorem eq_or_unit_of_stretches {dims run : List Nat} (hstretches : Kernel.Stretches dims run) :
    dims = run ∨ ∃ i t : Nat, dims[i]? = some 1 ∧ run[i]? = some t ∧ t ≠ 1 := by
  induction hstretches with
  | nil => exact .inl rfl
  | @cons d t dims run hextent _ ih =>
      rcases ih with hrest | ⟨i, t', hunit, ht', hne⟩
      · by_cases hsame : d = t
        · exact .inl (by rw [hsame, hrest])
        · obtain rfl := hextent.resolve_left hsame
          exact .inr ⟨0, t, rfl, rfl, Ne.symm hsame⟩
      · exact .inr ⟨i + 1, t', hunit, ht', hne⟩

theorem broadcasts_iff : Broadcasts axis a b ↔ Matches axis a b ∨ StretchesUnit axis a b := by
  constructor
  · intro hbroadcasts
    rcases eq_or_unit_of_stretches hbroadcasts.stretches with hrun | hunit
    · exact .inl ⟨hbroadcasts.toLies, hrun⟩
    · exact .inr ⟨hbroadcasts, hunit⟩
  · rintro (hmatches | hstretches)
    · refine ⟨hmatches.toLies, ?_⟩
      rw [← hmatches.run_eq]
      exact stretches_refl b
    · exact hstretches.1

theorem run_ne_of_stretchesUnit (hstretches : StretchesUnit axis a b) :
    b ≠ coveredRun axis a b := by
  intro hrun
  obtain ⟨-, i, t, hunit, ht, hne⟩ := hstretches
  rw [← hrun, hunit] at ht
  exact hne (Option.some.inj ht).symm

/-- Operands of one shape leave no axis to stretch. -/
theorem shape_ne_of_stretchesUnit (hstretches : StretchesUnit axis a b) : a ≠ b := by
  rintro rfl
  have hinside := hstretches.1.inside
  have hplace : broadcastPlace axis a a = 0 := by omega
  apply run_ne_of_stretchesUnit hstretches
  rw [coveredRun, hplace, List.drop_zero, List.take_length]

/-- With the flag, arithmetic lowers when the right operand has the extents of the axes it
is laid on, or one instead of some of them.  So it lowers for matching extents only, exactly
if it is not for a single place that has to be stretched. -/
theorem broadcast_accepts_iff (hkind : OperatorKind.parse? op.kind = some kind)
    (hfn : kind.arithmetic? = some fn) (hlhs : work.HasInput op 0 lhs ⟨.f32, ⟨a⟩⟩)
    (hrhs : work.HasInput op 1 rhs ⟨.f32, ⟨b⟩⟩) (hflag : op.flagArg "broadcast" = .ok true)
    (haxis : op.intArg "axis" (-1) = .ok axis) (hfree : work.FreeOutput op) :
    ((∃ last, (operator op).run.run work = (.ok (), last)) ↔
        a = b ∨ Matches axis a b ∨ StretchesUnit axis a b) ∧
      (((∃ last, (operator op).run.run work = (.ok (), last)) ↔ a = b ∨ Matches axis a b) ↔
        ¬StretchesUnit axis a b) := by
  have hbinds := @bindsIff_arithmetic op fn work lhs rhs a b true axis hlhs hrhs hflag haxis
  have haccepts : (∃ last, (operator op).run.run work = (.ok (), last)) ↔
      a = b ∨ Matches axis a b ∨ StretchesUnit axis a b := by
    rw [operator_eq hkind, ofKind_of_arithmetic? hfn, ← broadcasts_iff]
    constructor
    · rintro ⟨last, hrun⟩
      exact (hbinds.ensures hrun).1.imp_right And.right
    · intro hfits
      exact hbinds.succeeds (hfits.imp_right fun hbroadcasts => ⟨rfl, hbroadcasts⟩) hfree
  refine ⟨haccepts, ?_⟩
  rw [haccepts]
  constructor
  · intro hdocumented hstretches
    rcases hdocumented.mp (.inr (.inr hstretches)) with hshape | hmatches
    · exact shape_ne_of_stretchesUnit hstretches hshape
    · exact run_ne_of_stretchesUnit hstretches hmatches.run_eq
  · intro hnone
    constructor
    · rintro (hshape | hmatches | hstretches)
      · exact .inl hshape
      · exact .inr hmatches
      · exact absurd hstretches hnone
    · exact Or.imp_right .inl

/-- The row matches the last axis of the matrix. -/
theorem summands_broadcast_accepts :
    (∃ last, (operator (trailingSum "x" "b")).run.run summands = (.ok (), last)) ∧
      Matches (-1) [2, 3] [3] := by
  have hmatches : Matches (-1) [2, 3] [3] := ⟨⟨by decide, by decide⟩, rfl⟩
  have haccepts := @broadcast_accepts_iff (trailingSum "x" "b") .add .add summands (.first 0)
    (.first 1) [2, 3] [3] (-1) rfl rfl ⟨⟨"x", rfl, rfl⟩, rfl⟩ ⟨⟨"b", rfl, rfl⟩, rfl⟩ rfl rfl
    ⟨"y", rfl, rfl⟩
  exact ⟨haccepts.1.mpr (.inr (.inl hmatches)), hmatches⟩

/-- A single place is stretched over three, which it does not match. -/
theorem summands_broadcast_stretches :
    ((trailingSum "b" "c").flagArg "broadcast" = .ok true ∧
      (trailingSum "b" "c").intArg "axis" (-1) = .ok (-1) ∧
      summands.HasInput (trailingSum "b" "c") 0 (.first 1) ⟨.f32, ⟨[3]⟩⟩ ∧
      summands.HasInput (trailingSum "b" "c") 1 (.first 2) ⟨.f32, ⟨[1]⟩⟩ ∧
      summands.FreeOutput (trailingSum "b" "c")) ∧
      ¬((∃ last, (operator (trailingSum "b" "c")).run.run summands = (.ok (), last)) ↔
        [3] = [1] ∨ Matches (-1) [3] [1]) := by
  refine ⟨⟨rfl, rfl, ⟨⟨"b", rfl, rfl⟩, rfl⟩, ⟨⟨"c", rfl, rfl⟩, rfl⟩, ⟨"y", rfl, rfl⟩⟩, ?_⟩
  intro hdocumented
  rcases hdocumented.mp ⟨_, rfl⟩ with hshape | hmatches
  · exact absurd hshape (by decide)
  · exact absurd hmatches.run_eq (by decide)

end Lowering
end NetImport
