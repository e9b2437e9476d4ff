import NetImport.Proofs.Graph.Growth

/-!
# Sessions of graph building

A session starts from the empty graph and calls builders, takes checkpoints and rolls
back, in any order, with any handles, and regardless of refusals.  A checkpoint is live
as long as the graph has not been shorter since it was taken.  Sessions that roll back
to live checkpoints only end in graphs that verify; other sessions may leave an output
variable without its save, and nothing worse.
-/

namespace NetImport

/-- A call of a builder, with its arguments. -/
inductive BuilderCall where
  | placeholder (name : String) (type : TensorType)
  | constant (name : String) (tensor : Tensor)
  | convolution (name : String) (input filter : Handle) (bias : Option Handle)
      (params : Convolution)
  | pooling (name : String) (input : Handle) (params : Pooling)
  | matrixProduct (name : String) (lhs rhs : Handle)
  | transpose (name : String) (input : Handle) (perm : List Nat)
  | reshape (name : String) (input : Handle) (dims : List Nat)
  | slice (name : String) (input : Handle) (start size : List Nat)
  | concat (name : String) (inputs : List Handle) (axis : Nat)
  | broadcast (name : String) (input : Handle) (axis : Nat) (dims : List Nat)
  | splat (name : String) (type : TensorType) (value : Float)
  | isNaN (name : String) (input : Handle)
  | select (name : String) (cond onTrue onFalse : Handle)
  | clip (name : String) (input : Handle) (low high : Float)
  | arithmetic (name : String) (op : ArithmeticOp) (lhs rhs : Handle)
  | unary (name : String) (op : UnaryOp) (input : Handle)
  | softmax (name : String) (input : Handle)
  | save (name : String) (input : Handle)

namespace BuilderCall

/-- What a call returns on a graph, and the graph that it leaves. -/
def perform (graph : Graph) : BuilderCall → Except GraphError Handle × Graph
  | .placeholder name type => graph.inPlace (graph.placeholder name type)
  | .constant name tensor => graph.inPlace (graph.constant name tensor)
  | .convolution name input filter bias params =>
      graph.inPlace (graph.convolution name input filter bias params)
  | .pooling name input params => graph.inPlace (graph.pooling name input params)
  | .matrixProduct name lhs rhs => graph.inPlace (graph.matrixProduct name lhs rhs)
  | .transpose name input perm => graph.inPlace (graph.transpose name input perm)
  | .reshape name input dims => graph.inPlace (graph.reshape name input dims)
  | .slice name input start size => graph.inPlace (graph.slice name input start size)
  | .concat name inputs axis => graph.inPlace (graph.concat name inputs axis)
  | .broadcast name input axis dims => graph.inPlace (graph.broadcast name input axis dims)
  | .splat name type value => graph.inPlace (graph.splat name type value)
  | .isNaN name input => graph.inPlace (graph.isNaN name input)
  | .select name cond onTrue onFalse =>
      graph.inPlace (graph.select name cond onTrue onFalse)
  | .clip name input low high => graph.inPlace (graph.clip name input low high)
  | .arithmetic name op lhs rhs => graph.inPlace (graph.arithmetic name op lhs rhs)
  | .unary name op input => graph.inPlace (graph.unary name op input)
  | .softmax name input => graph.inPlace (graph.softmax name input)
  | .save name input => graph.saveInPlace name input

theorem inPlace_append_cases (graph : Graph) (name : String) {kind : NodeKind}
    (hkind : kind.StandsAlone) :
    (∃ error, graph.inPlace (graph.append name kind) = (.error error, graph)) ∨
      ∃ value next, graph.inPlace (graph.append name kind) = (.ok value, next) ∧
        graph.Step next := by
  cases happend : graph.append name kind with
  | error error => exact .inl ⟨error, rfl⟩
  | ok appended => exact .inr ⟨appended.2, appended.1, rfl, .alone hkind happend⟩

/-- A call is refused and changes nothing, or the graph grows by one step. -/
theorem perform_cases (graph : Graph) (call : BuilderCall) :
    (∃ error, call.perform graph = (.error error, graph)) ∨
      ∃ value next, call.perform graph = (.ok value, next) ∧ graph.Step next := by
  cases call with
  | save name input =>
      rcases graph.saveInPlace_cases name input with hrefused | hsaved
      · exact .inl hrefused
      · obtain ⟨type, withVariable, output, next, value, htype, hvariable, hsave, heq⟩ := hsaved
        exact .inr ⟨output, next, heq, .saved htype hvariable hsave⟩
  | _ =>
      simp only [perform]
      refine inPlace_append_cases graph _ ?_
      constructor <;> intros <;> exact nofun

end BuilderCall

/-- A step of a session.  A rollback may name any length, also one that no checkpoint
of this graph has. -/
inductive BuildStep where
  | create (call : BuilderCall)
  | checkpoint
  | rollback (mark : Nat)

/-- A graph under construction, with the lengths of the live checkpoints. -/
structure Building where
  graph : Graph
  live : List Nat

namespace Building

def start (name : String) : Building := ⟨.empty name, []⟩

/-- The graph after a step. -/
def graphAfter (graph : Graph) : BuildStep → Graph
  | .create call => (call.perform graph).2
  | .checkpoint => graph
  | .rollback mark => graph.rollback mark

/-- A step keeps the checkpoints, with the one that it takes, that the graph is not
shorter than afterwards. -/
def advance (building : Building) (step : BuildStep) : Building :=
  let graph := graphAfter building.graph step
  let taken :=
    match step with
    | .checkpoint => building.graph.checkpoint :: building.live
    | _ => building.live
  ⟨graph, taken.filter (· ≤ graph.nodes.size)⟩

def run (building : Building) (steps : List BuildStep) : Building :=
  steps.foldl advance building

/-- Every rollback of a session is to a checkpoint that is live then. -/
def RollbacksLive : Building → List BuildStep → Prop
  | _, [] => True
  | building, step :: steps =>
      (∀ mark, step = .rollback mark → mark ∈ building.live) ∧
        (building.advance step).RollbacksLive steps

theorem graphAfter_wellBuilt {graph : Graph} (hbuilt : graph.WellBuilt) (step : BuildStep) :
    (graphAfter graph step).WellBuilt := by
  cases step with
  | create call =>
      rcases call.perform_cases graph with ⟨error, hrefused⟩ | ⟨value, next, hdone, hstep⟩
      · simpa [graphAfter, hrefused] using hbuilt
      · simpa [graphAfter, hdone] using hstep.wellBuilt hbuilt
  | checkpoint => exact hbuilt
  | rollback mark => exact hbuilt.rollback mark

theorem run_wellBuilt {building : Building} (hbuilt : building.graph.WellBuilt)
    (steps : List BuildStep) :
    (building.run steps).graph.WellBuilt := by
  induction steps generalizing building with
  | nil => exact hbuilt
  | cons step steps ih => exact ih (graphAfter_wellBuilt hbuilt step)

/-- Up to each live checkpoint, and up to its end, the graph has every output variable
saved. -/
structure Complete (building : Building) : Prop where
  marksInside : ∀ mark ∈ building.live, mark ≤ building.graph.nodes.size
  marksSaved : ∀ mark ∈ building.live, building.graph.SavedBelow mark
  allSaved : building.graph.SavedBelow building.graph.nodes.size

theorem start_complete (name : String) : (start name).Complete := by
  constructor
  · simp [start]
  · simp [start]
  · intro output node houtput
    simp [start, Graph.empty] at houtput

theorem Complete.create {building : Building} (hcomplete : building.Complete)
    (call : BuilderCall) :
    (building.advance (.create call)).Complete := by
  rcases call.perform_cases building.graph with ⟨error, hrefused⟩ | ⟨value, next, hdone, hstep⟩
  · constructor <;> simp only [advance, graphAfter, hrefused, List.mem_filter]
    · exact fun mark hmark => of_decide_eq_true hmark.2
    · exact fun mark hmark => hcomplete.marksSaved mark hmark.1
    · exact hcomplete.allSaved
  · constructor <;> simp only [advance, graphAfter, hdone, List.mem_filter]
    · exact fun mark hmark => of_decide_eq_true hmark.2
    · intro mark hmark
      have hinside := hcomplete.marksInside mark hmark.1
      exact (hcomplete.marksSaved mark hmark.1).of_agree fun position hposition =>
        hstep.getElem?_eq (by omega)
    · exact hstep.savedBelow_size hcomplete.allSaved

theorem Complete.checkpoint {building : Building} (hcomplete : building.Complete) :
    (building.advance .checkpoint).Complete := by
  constructor <;> simp only [advance, graphAfter, List.mem_filter]
  · exact fun mark hmark => of_decide_eq_true hmark.2
  · rintro mark ⟨hmark, -⟩
    rcases List.mem_cons.mp hmark with rfl | hold
    · exact hcomplete.allSaved
    · exact hcomplete.marksSaved mark hold
  · exact hcomplete.allSaved

theorem Complete.rollback {building : Building} (hcomplete : building.Complete) {mark : Nat}
    (hlive : mark ∈ building.live) :
    (building.advance (.rollback mark)).Complete := by
  have hinside := hcomplete.marksInside mark hlive
  have hsize : (building.graph.rollback mark).nodes.size = mark := by
    simp [Graph.rollback]
    omega
  have hagree (position : Nat) (hposition : position < mark) :
      (building.graph.rollback mark).nodes[position]? = building.graph.nodes[position]? := by
    rw [Graph.rollback, getElem?_take_eq, if_pos hposition]
  constructor <;> simp only [advance, graphAfter, List.mem_filter, hsize]
  · exact fun other hother => of_decide_eq_true hother.2
  · intro other hother
    have hshorter : other ≤ mark := of_decide_eq_true hother.2
    exact (hcomplete.marksSaved other hother.1).of_agree fun position hposition =>
      hagree position (by omega)
  · exact (hcomplete.marksSaved mark hlive).of_agree hagree

theorem run_complete {building : Building} (hcomplete : building.Complete)
    {steps : List BuildStep} (hlive : building.RollbacksLive steps) :
    (building.run steps).Complete := by
  induction steps generalizing building with
  | nil => exact hcomplete
  | cons step steps ih =>
      obtain ⟨hstep, hrest⟩ := hlive
      refine ih ?_ hrest
      cases step with
      | create call => exact hcomplete.create call
      | checkpoint => exact hcomplete.checkpoint
      | rollback mark => exact hcomplete.rollback (hstep mark rfl)

/-- A session leaves a built graph whenever that graph verifies. -/
theorem built_of_verify {name : String} {steps : List BuildStep} {verified : VerifiedGraph}
    (hverify : ((start name).run steps).graph.verify = .ok verified) :
    verified.graph.Built := by
  have hbuilt : ((start name).run steps).graph.WellBuilt :=
    run_wellBuilt (Graph.wellBuilt_empty name) steps
  rw [← Graph.graph_of_verify_eq_ok hverify] at hbuilt
  exact ⟨hbuilt, hbuilt.check_eq_ok_iff.mp verified.verified⟩

end Building

namespace Graph

/-- What holds of every graph that builders made. -/
structure BuilderInvariant (graph : Graph) : Prop where
  operandsEarlier : ∀ (position : Nat) (node : Node), graph.nodes[position]? = some node →
    ∀ value ∈ node.kind.operands, value.node < position
  resultsInferred : ∀ (position : Nat) (node : Node), graph.nodes[position]? = some node →
    Typing.infer node.kind (graph.nodes.take position) = .ok node.results
  namesDistinct : ∀ (i j : Nat) (m n : Node), graph.nodes[i]? = some m →
    graph.nodes[j]? = some n → m.isVariable → n.isVariable → m.name = n.name → i = j
  savesTargetOutputs : ∀ (position output : Nat) (node : Node),
    graph.nodes[position]? = some node → node.savesInto? = some output →
    output < position ∧ ∃ target, graph.nodes[output]? = some target ∧ target.isOutput
  outputsSavedOnce : ∀ (i j output : Nat) (m n : Node), graph.nodes[i]? = some m →
    graph.nodes[j]? = some n → m.savesInto? = some output → n.savesInto? = some output →
    i = j

theorem WellBuilt.builderInvariant {graph : Graph} (hbuilt : graph.WellBuilt) :
    graph.BuilderInvariant where
  operandsEarlier _ _ hnode _ hvalue := hbuilt.operand_before hnode hvalue
  resultsInferred _ _ hnode := hbuilt.inferred hnode
  namesDistinct _ _ _ _ hm hn := hbuilt.distinctNames hm hn
  savesTargetOutputs _ _ _ hnode hinto := by
    obtain ⟨input, hkind⟩ := WellBuilt.savesInto_iff.mp hinto
    exact hbuilt.target_before hnode hkind
  outputsSavedOnce _ _ _ _ _ hm hn := hbuilt.save_unique hm hn

end Graph

/-- After any session the graph has the invariant of builders, and a refused call of a
builder leaves its nodes alone.  It verifies when all rollbacks were to live checkpoints;
otherwise the one possible complaint is an output variable that no save writes. -/
theorem sessions_keep_builderInvariant (name : String) (steps : List BuildStep) :
    let graph := ((Building.start name).run steps).graph
    graph.BuilderInvariant ∧
      (∀ (call : BuilderCall) (error : GraphError),
        (call.perform graph).1 = .error error → (call.perform graph).2.nodes = graph.nodes) ∧
      ((Building.start name).RollbacksLive steps →
        ∃ verified, graph.verify = .ok verified ∧ verified.graph = graph) ∧
      ∀ error, graph.verify = .error error → ∃ node ∈ graph.nodes, node.isOutput ∧
        error = .verification node.name "output written by 0 save nodes" := by
  intro graph
  have hstart : (Building.start name).graph.WellBuilt := Graph.wellBuilt_empty name
  have hbuilt : graph.WellBuilt := Building.run_wellBuilt hstart steps
  refine ⟨hbuilt.builderInvariant, ?_, ?_, ?_⟩
  · intro call error herror
    rcases call.perform_cases graph with ⟨_, hrefused⟩ | ⟨value, next, hdone, -⟩
    · rw [hrefused]
    · rw [hdone] at herror
      cases herror
  · intro hlive
    have hcomplete := Building.run_complete (Building.start_complete name) hlive
    have hcheck := Graph.Built.check_eq_ok ⟨hbuilt, hcomplete.allSaved⟩
    exact ⟨⟨graph, hcheck⟩, Graph.verify_eq_ok_of_check hcheck, rfl⟩
  · exact fun error hverify =>
      hbuilt.check_eq_error (Graph.check_of_verify_eq_error hverify)

/-- A session that takes back its first output and makes another one. -/
theorem session_with_live_rollback_verifies :
    let steps : List BuildStep :=
      [.create (.placeholder "x" ⟨.f32, ⟨[2, 3]⟩⟩), .checkpoint, .create (.save "y" ⟨0, 0⟩),
        .create (.unary "r" .relu ⟨7, 0⟩), .rollback 1, .create (.save "z" ⟨0, 0⟩)]
    let building := (Building.start "g").run steps
    (Building.start "g").RollbacksLive steps ∧
      ∃ verified, building.graph.verify = .ok verified ∧ verified.graph = building.graph := by
  intro steps building
  have hlive : (Building.start "g").RollbacksLive steps := by
    refine ⟨nofun, nofun, nofun, nofun, fun mark hmark => ?_, nofun, trivial⟩
    cases hmark
    decide +kernel
  exact ⟨hlive, (sessions_keep_builderInvariant "g" steps).2.2.1 hlive⟩

/-- The last rollback is to a checkpoint of before the output was made, and parts the
output from its save. -/
example :
    (((Building.start "g").run
      [.create (.placeholder "x" ⟨.f32, ⟨[2, 3]⟩⟩), .checkpoint,
        .create (.placeholder "w" ⟨.f32, ⟨[2, 3]⟩⟩), .checkpoint, .rollback 1,
        .create (.save "y" ⟨0, 0⟩), .rollback 2]).graph.check) =
      .error (.verification "y" "output written by 0 save nodes") := by
  cbv

end NetImport
