import NetImport.Lowering.Words
import NetImport.Proofs.Execution.Words
import NetImport.Proofs.Lowering.OneOutput
import NetImport.Proofs.Lowering.Stacks

/-!
# Lowering in words

A lowering in words runs as the one without from a workspace in which the sums and products that
it comes to are words.  The two are compared step by step, each step from the workspace that the
steps before it have left, where the types of the values are known.
-/

namespace NetImport

variable {bits : Nat}

theorem Graph.appendInWords_eq {graph : Graph} {kind : NodeKind} (name : String)
    (hwords : kind.FitsWords bits graph.nodes) :
    graph.appendInWords bits name kind = liftM (graph.append name kind) := by
  rw [appendInWords, append, Typing.inferInWords_eq hwords]
  refine Typing.liftM_bind_eq fun results _ => ?_
  split <;> rfl

namespace Lowering

variable {α β : Type} {work : Workspace} {bindings : Bindings} {given fits : Prop}
  {op : Operator} {name arg suffix : String} {value : Handle} {dims target : List Nat}
  {stack : MatrixStack}

/-! ## Sequences -/

/-- Two sequences run alike when their first steps do, and so does the rest from wherever the
first step leads. -/
theorem run_bind_congr {m m' : Lowering α} {f f' : α → Lowering β}
    (hm : m'.run.run work = m.run.run work)
    (hf : ∀ a next, m.run.run work = (.ok a, next) →
      (f' a).run.run next = (f a).run.run next) :
    (m' >>= f').run.run work = (m >>= f).run.run work := by
  rw [run_bind, run_bind, hm]
  rcases hresult : m.run.run work with ⟨error | a, next⟩
  · rfl
  · exact hf a next hresult

/-- A first step of which it is known when it succeeds, and with what. -/
theorem run_bind_congr_of_succeeds {m m' : Lowering α} {f f' : α → Lowering β}
    {mid : α → Workspace → Prop} (hm : m'.run.run work = m.run.run work)
    (hmid : SucceedsIff m work fits mid)
    (hf : ∀ a next, work.Computes next → mid a next →
      (f' a).run.run next = (f a).run.run next) :
    (m' >>= f').run.run work = (m >>= f).run.run work := by
  refine run_bind_congr hm fun a next hrun => ?_
  obtain ⟨-, hcomputes, hresult⟩ := hmid.ensures hrun
  exact hf a next hcomputes hresult

/-- A first step that only looks at the workspace. -/
theorem run_bind_congr_of_run {m : Lowering α} {f f' : α → Lowering β} {a : α}
    (hm : m.run.run work = (.ok a, work)) (hf : (f' a).run.run work = (f a).run.run work) :
    (m >>= f').run.run work = (m >>= f).run.run work := by
  rw [run_bind, run_bind, hm]
  exact hf

/-- The elements of a list are lowered alike, from every workspace that the elements before
them may lead to. -/
theorem run_mapM_congr {f f' : α → Lowering β} {good : α → β → Workspace → Prop} {xs : List α}
    (hgood : ∀ x ∈ xs, ∀ next, work.Computes next → SucceedsIff (f x) next fits (good x))
    (hsame : ∀ x ∈ xs, ∀ next, work.Computes next →
      (f' x).run.run next = (f x).run.run next) :
    (xs.mapM f').run.run work = (xs.mapM f).run.run work := by
  induction xs generalizing work with
  | nil => rfl
  | cons x xs ih =>
      rw [List.forall_mem_cons] at hgood hsame
      rw [List.mapM_cons, List.mapM_cons]
      refine run_bind_congr_of_succeeds (hsame.1 work .refl) (hgood.1 work .refl) ?_
      intro y next hnext _
      refine run_bind_congr (ih ?_ ?_) fun _ _ _ => rfl
      · exact fun other hother last hlast => hgood.2 other hother last (hnext.trans hlast)
      · exact fun other hother last hlast => hsame.2 other hother last (hnext.trans hlast)

/-! ## Nodes -/

theorem run_buildInWords {add : Graph → Except GraphError (Graph × Handle)} {kind : NodeKind}
    (hadd : ∀ graph, add graph = graph.append name kind)
    (hwords : kind.FitsWords bits work.graph.nodes) :
    (buildInWords bits op name kind).run.run work = (build op add).run.run work := by
  rw [build, run_append, hadd, buildInWords, run_bind, run_get]
  dsimp only
  rw [Graph.appendInWords_eq name hwords]
  cases work.graph.append name kind <;> rfl

theorem run_reshapeInWords (hvalue : work.Holds bindings given value dims stack)
    (hdims : product dims < twoPow bits) (htarget : product target < twoPow bits) :
    (buildInWords bits op name (.reshape value target)).run.run work =
      (build op fun graph => graph.reshape name value target).run.run work := by
  refine run_buildInWords (fun _ => rfl) fun x hx => ?_
  obtain rfl := Except.ok.inj (hvalue.type_eq.symm.trans hx)
  exact ⟨hdims, htarget⟩

theorem run_reshapeToInWords (hvalue : work.Holds bindings given value dims stack)
    (hdims : product dims < twoPow bits) (htarget : product target < twoPow bits) :
    (reshapeToInWords bits op value target suffix).run.run work =
      (reshapeTo op value target suffix).run.run work := by
  refine run_bind_congr_of_run (run_dimsOf hvalue.type_eq) ?_
  split
  · rfl
  · exact run_reshapeInWords hvalue hdims htarget

/-- A row is repeated over the axis in front of its own, whose number is one. -/
theorem run_broadcastInWords {m n : Nat} (hbits : 2 ≤ bits)
    (hvalue : work.Holds bindings given value [n] stack) :
    (buildInWords bits op name (.broadcast value 1 [m, n])).run.run work =
      (build op fun graph => graph.broadcast name value 1 [m, n]).run.run work := by
  refine run_buildInWords (fun _ => rfl) fun x hx => ?_
  obtain rfl := Except.ok.inj (hvalue.type_eq.symm.trans hx)
  have hlast : 1 + 1 < twoPow 2 := by decide
  exact Nat.lt_of_lt_of_le hlast (Nat.pow_le_pow_right Nat.two_pos hbits)

theorem run_sliceInWords {count rows columns index : Nat}
    (hvalue : work.Holds bindings given value [count, rows, columns] stack)
    (hindex : index < count) (hcount : count < twoPow bits) (hrows : rows < twoPow bits)
    (hcolumns : columns < twoPow bits) (hproduct : count * (rows * columns) < twoPow bits) :
    (buildInWords bits op name (.slice value [index, 0, 0] [1, rows, columns])).run.run work =
      (build op fun graph =>
        graph.slice name value [index, 0, 0] [1, rows, columns]).run.run work := by
  refine run_buildInWords (fun _ => rfl) fun x hx => ?_
  obtain rfl := Except.ok.inj (hvalue.type_eq.symm.trans hx)
  constructor
  · have hend : index + 1 < twoPow bits := by omega
    simpa using ⟨hend, hrows, hcolumns⟩
  · simpa [Shape.count] using hproduct

theorem run_concatInWords {values : List Handle} {rows columns : Nat}
    (hvalues : ∀ value ∈ values,
      work.graph.valueType value = .ok ⟨.f32, ⟨[rows, columns]⟩⟩)
    (hrows : values.length * rows < twoPow bits) :
    (buildInWords bits op name (.concat values 0)).run.run work =
      (build op fun graph => graph.concat name values 0).run.run work := by
  refine run_buildInWords (fun _ => rfl) fun types htypes => ?_
  have hsame : types = List.replicate values.length ⟨.f32, ⟨[rows, columns]⟩⟩ :=
    Except.ok.inj (htypes.symm.trans (mapM_eq_ok_replicate hvalues))
  rw [Kernel.ConcatFitsWords, hsame]
  simpa [Kernel.total_replicate] using hrows

/-! ## Flattened operands -/

theorem run_flattenAtInWords {axis : Nat}
    (hvalue : work.Holds bindings given value dims stack)
    (houter : product (dims.take axis) < twoPow bits)
    (hinner : product (dims.drop axis) < twoPow bits) (hdims : product dims < twoPow bits) :
    (flattenAtInWords bits op value arg axis suffix).run.run work =
      (flattenAt op value arg axis suffix).run.run work := by
  refine run_bind_congr_of_run (run_dimsOf hvalue.type_eq) ?_
  dsimp only [TensorType.dims]
  by_cases haxis : axis = 0 ∨ dims.length ≤ axis
  · rw [if_pos haxis, if_pos haxis]
    rfl
  · rw [if_neg haxis, if_neg haxis]
    have hsplit : (splitAt op dims axis).run.run work =
        (.ok (dims.take axis, dims.drop axis), work) := run_splitAt (by omega)
    have hextents : (matrixDims op dims axis).run.run work =
        (.ok [product (dims.take axis), product (dims.drop axis)], work) := by
      rw [matrixDims, run_bind, hsplit]
      rfl
    have hextentsInWords : (matrixDimsInWords bits op dims axis).run.run work =
        (.ok [product (dims.take axis), product (dims.drop axis)], work) := by
      rw [matrixDimsInWords, run_bind, hsplit]
      dsimp only
      rw [productInWords_eq houter, productInWords_eq hinner]
      rfl
    refine run_bind_congr (hextentsInWords.trans hextents.symm) fun extents next hrun => ?_
    obtain ⟨hfound, rfl⟩ := Prod.mk.inj (hextents.symm.trans hrun)
    obtain rfl := Except.ok.inj hfound
    refine run_reshapeToInWords hvalue hdims ?_
    simpa [← product_append] using hdims

end Lowering
end NetImport
