import NetImport.Proofs.Kernel.Pooled
import NetImport.Proofs.Kernel.WindowWords
import NetImport.Proofs.Lowering.Images
import NetImport.Proofs.Lowering.WindowArguments

/-!
# Pooling by its pixels

Global pooling has the whole image for its window; otherwise the window is the one that the
arguments spell.  Whatever the order, the pixels of the result are the reductions of the
windows, and a window beyond the right edge fails the evaluation and nothing before it.
-/

namespace NetImport

open Lowering (StorageOrder)

theorem Kernel.pooling_shows {pool : Pooling} {dims : ImageDims} {pixels : Pixels}
    {input output : Tensor} (hinput : input.Depicts .channelsFirst dims pixels)
    (hfits : pool.window.Fits ⟨dims.height, dims.width⟩)
    (houtput : output.type = ⟨.f32, ⟨(pool.resultDims dims).stored .channelsFirst⟩⟩) :
    Shows (pooling pool input output) .channelsFirst (pool.resultDims dims)
      (pool.outcome dims pixels) := by
  unfold Pooling.outcome
  by_cases hedge : pool.PastEdge dims
  · rw [if_pos hedge]
    exact pooling_eq_error hinput.type_eq hfits houtput hedge
  · rw [if_neg hedge]
    exact pooling_depicts hinput hfits houtput hedge

namespace Lowering

variable {work : Workspace} {bindings : Bindings} {given : Prop} {op : Operator} {name : String}
  {value : Handle} {pool : Pooling} {order : StorageOrder} {dims : ImageDims} {pixels : Pixels}

theorem succeedsIff_pool
    (hvalue : work.Depicts bindings given value .channelsFirst dims (.ok pixels)) :
    SucceedsIff (build op fun graph => graph.pooling name value pool) work
      (pool.window.Fits ⟨dims.height, dims.width⟩) fun value last =>
        last.Depicts bindings given value .channelsFirst (pool.resultDims dims)
          (pool.outcome dims pixels) := by
  have hkind : (NodeKind.pooling value pool).Computes := trivial
  have hinfer (types : List TensorType) :
      Typing.infer (.pooling value pool) work.graph.nodes = .ok types ↔
        pool.window.Fits ⟨dims.height, dims.width⟩ ∧
          types = [⟨.f32, ⟨(pool.resultDims dims).stored .channelsFirst⟩⟩] := by
    have htype : Typing.operand work.graph.nodes value =
        .ok ⟨.f32, ⟨dims.stored .channelsFirst⟩⟩ := hvalue.type_eq
    simp only [Typing.infer, htype, ok_bind, bind_eq_ok_iff, pure_eq_ok_iff,
      Typing.expectDType_eq_ok_iff, Typing.derived_eq_ok_iff, Pooling.outputShape_eq_ok_iff]
    constructor
    · rintro ⟨-, -, shape, ⟨hfits, rfl⟩, rfl⟩
      exact ⟨hfits, rfl⟩
    · rintro ⟨hfits, rfl⟩
      exact ⟨(), trivial, _, ⟨hfits, rfl⟩, rfl⟩
  refine (succeedsIff_build (fun _ => rfl) hkind hinfer).mono fun hfits _ hresult => ?_
  refine ⟨hresult.1, fun hgiven => ?_⟩
  obtain ⟨tensor, htensor, hdepicts⟩ := hvalue.shows hgiven
  rw [hresult.2 bindings]
  simp only [Engine.applyKernel, htensor, ok_bind]
  exact Kernel.pooling_shows hdepicts hfits rfl

/-- The window of a pooling operator on images of some extents. -/
def TakesWindow (global : Bool) (args : WindowArgs) (image : Plane) (window : Window) : Prop :=
  if global then window = ⟨image, .square 1, ⟨0, 0, 0, 0⟩⟩
  else args.kernel = some window.kernel ∧ args.stride = window.stride ∧
    args.padding = window.padding

/-- What a pooling operator reads from its arguments. -/
structure ReadsPooling (op : Operator) (order : StorageOrder) (image : Plane) (window : Window) :
    Prop where
  order_eq : storageOrder op = .ok order
  window_eq : ∃ args global, windowArgs op = .ok args ∧
    op.flagArg "global_pooling" = .ok global ∧ TakesWindow global args image window

theorem bindsIff_pooling (hreads : ReadsPooling op order ⟨dims.height, dims.width⟩ pool.window)
    (hvalue : work.HasInput op 0 value ⟨.f32, ⟨dims.stored order⟩⟩)
    (hdepicts : work.Depicts bindings given value order dims (.ok pixels)) :
    BindsIff op (pooling pool.mode op) work (pool.window.Fits ⟨dims.height, dims.width⟩)
      fun value last => last.Depicts bindings given value order (pool.resultDims dims)
        (pool.outcome dims pixels) := by
  obtain ⟨args, global, hargs, hglobal, hwindow⟩ := hreads.window_eq
  unfold pooling
  refine bindsIff_bind_of_run (run_ofExcept hreads.order_eq) ?_
  refine bindsIff_bind_of_run (run_ofExcept hargs) ?_
  refine bindsIff_bind_of_run (run_ofExcept hglobal) ?_
  refine bindsIff_bind_of_run (run_input hvalue) ?_
  refine bindsIff_bind_of_run (run_requireRankFour hvalue.typed (ImageDims.length_stored ..)) ?_
  refine bindsIff_bind_of_succeeds (succeeds_toChannelsFirst hdepicts) ?_
  intro value' next hnext hdepicts
  refine bindsIff_bind_of_run (run_imagePlane hdepicts) ?_
  extract_lets rest
  have hrest : BindsIff op (rest pool.window) next (pool.window.Fits ⟨dims.height, dims.width⟩)
      fun value last => last.Depicts bindings given value order (pool.resultDims dims)
        (pool.outcome dims pixels) := by
    refine (bindsIff_bind (succeedsIff_pool hdepicts) fun result last hlast hresult =>
      bindsIff_bindResult hresult).of_iff (and_iff_left trivial)
  unfold TakesWindow at hwindow
  cases global with
  | true =>
      rw [if_pos rfl] at hwindow ⊢
      rw [← hwindow]
      exact bindsIff_bind_of_run rfl hrest
  | false =>
      rw [if_neg Bool.false_ne_true] at hwindow ⊢
      obtain ⟨hkernel, hstride, hpadding⟩ := hwindow
      rw [hkernel, hstride, hpadding]
      exact bindsIff_bind_of_run rfl hrest

/-- What a pooling operator that is lowered has read. -/
theorem reads_of_run_pooling {mode : PoolMode} {last : Workspace} {extents : List Nat}
    (hvalue : work.HasInput op 0 value ⟨.f32, ⟨extents⟩⟩)
    (hrun : (pooling mode op).run.run work = (.ok (), last)) :
    ∃ order dims window, extents = ImageDims.stored dims order ∧
      ReadsPooling op order ⟨dims.height, dims.width⟩ window := by
  unfold pooling at hrun
  obtain ⟨order, horder, hwindow⟩ := run_ofExcept_bind_eq_ok_iff.mp hrun
  obtain ⟨args, hargs, hflag⟩ := run_ofExcept_bind_eq_ok_iff.mp hwindow
  obtain ⟨global, hglobal, hinputs⟩ := run_ofExcept_bind_eq_ok_iff.mp hflag
  rw [run_bind, run_input hvalue] at hinputs
  obtain ⟨_, afterRank, hrank, hsteps⟩ := run_bind_eq_ok_iff.mp hinputs
  obtain ⟨hlength, -⟩ := length_of_run_requireRankFour hvalue.typed hrank
  obtain ⟨dims, hdims⟩ := exists_stored order hlength
  cases global with
  | true => exact ⟨order, dims, _, hdims, horder, args, true, hargs, hglobal, rfl⟩
  | false =>
      cases hkernel : args.kernel with
      | some kernel =>
          refine ⟨order, dims, ⟨kernel, args.stride, args.padding⟩, hdims, horder, args, false,
            hargs, hglobal, ?_⟩
          exact ⟨hkernel, rfl, rfl⟩
      | none =>
          obtain ⟨value', afterOrder, -, hplane⟩ := run_bind_eq_ok_iff.mp hsteps
          obtain ⟨plane, afterPlane, -, hrest⟩ := run_bind_eq_ok_iff.mp hplane
          rw [if_neg Bool.false_ne_true, hkernel] at hrest
          cases hrest

/-- A window over the whole image stops once, at its first place. -/
theorem not_pastEdge_of_global
    (hwindow : pool.window = ⟨⟨dims.height, dims.width⟩, .square 1, ⟨0, 0, 0, 0⟩⟩) :
    ¬pool.PastEdge dims := by
  intro hedge
  obtain ⟨column, hcolumn, hbeyond⟩ := hedge.column
  rw [Pooling.resultDims, hwindow] at hcolumn
  rw [hwindow] at hbeyond
  simp only [Window.result, Plane.square, Nat.add_zero, Nat.sub_self, Nat.zero_div] at hcolumn
  simp only [Window.columnAt, windowPlace, Plane.square] at hbeyond
  omega

/-! ## Pooling of tensors -/

/-- The pixels of a result are the reductions of the windows over an operand. -/
def PoolsPixels (pool : Pooling) (order : StorageOrder) (dims : ImageDims) (a y : Tensor) : Prop :=
  ∀ {n channel row column}, (pool.resultDims dims).Contains n channel row column →
    ∃ number, y.pixel? order n channel row column = some number ∧
      Pooling.value? pool.mode (pool.window.planeCells ⟨dims.height, dims.width⟩ row column)
        (a.pixel? order n channel) = some number

theorem poolsPixels_of_depicts {a y : Tensor} (ha : a.Depicts order dims pixels)
    (hy : y.Depicts order (pool.resultDims dims) (pool.pooled dims pixels)) :
    PoolsPixels pool order dims a y := by
  intro n channel row column hcontains
  refine ⟨_, hy.pixel?_eq hcontains, Pooling.value?_eq_some fun {r q} hcell => ?_⟩
  obtain ⟨hr, hq⟩ := Window.mem_planeCells hcell
  exact ha.pixel?_eq ⟨hcontains.count, hcontains.channel, hr, hq⟩

/-- A value of the last workspace shows the pooling of a value of the first, for some tensor
of this, and fails to evaluate where a window is past the edge. -/
structure IsPooled (work : Workspace) (order : StorageOrder) (pool : Pooling) (dims : ImageDims)
    (value : Handle) (bindings : Bindings) (a : Tensor) (result : Handle) (last : Workspace) :
    Prop where
  typed : last.graph.valueType result = .ok ⟨.f32, ⟨(pool.resultDims dims).stored order⟩⟩
  fails : work.HasValue bindings value ⟨.f32, ⟨dims.stored order⟩⟩ a → pool.PastEdge dims →
    last.graph.evaluate bindings result.node = .error .windowPastEdge
  evaluates : work.HasValue bindings value ⟨.f32, ⟨dims.stored order⟩⟩ a → ¬pool.PastEdge dims →
    ∃ y, last.HasValue bindings result ⟨.f32, ⟨(pool.resultDims dims).stored order⟩⟩ y ∧
      PoolsPixels pool order dims a y

theorem bindsIff_isPooled (hreads : ReadsPooling op order ⟨dims.height, dims.width⟩ pool.window)
    (hvalue : work.HasInput op 0 value ⟨.f32, ⟨dims.stored order⟩⟩) (a : Tensor) :
    BindsIff op (pooling pool.mode op) work (pool.window.Fits ⟨dims.height, dims.width⟩)
      (IsPooled work order pool dims value bindings a) := by
  obtain ⟨pixels, ha, hdepicts⟩ := @Workspace.exists_depicts work bindings
    (work.HasValue bindings value ⟨.f32, ⟨dims.stored order⟩⟩ a) value order dims a hvalue.typed id
  refine (bindsIff_pooling hreads hvalue hdepicts).mono fun hfits hresult => ?_
  refine ⟨hresult.type_eq, fun hgiven hedge => ?_, fun hgiven hedge => ?_⟩
  · have hshown := hresult.shows hgiven
    rwa [Pooling.outcome, if_pos hedge] at hshown
  · have hshown := hresult.shows hgiven
    rw [Pooling.outcome, if_neg hedge] at hshown
    obtain ⟨y, hy, hpooled⟩ := hshown
    exact ⟨y, ⟨hy, hpooled.type_eq⟩, poolsPixels_of_depicts (ha hgiven) hpooled⟩

/-- The operators that pool. -/
def poolKind : PoolMode → OperatorKind
  | .max => .maxPool
  | .average => .averagePool

/-- The pooling kernel fails exactly when some window with pixels in a row begins beyond the
right edge, and otherwise reduces the pixels under each window; in words it does the same,
where twice the padded extents are words.  An operator that is lowered has taken the whole
image for its window, or else the one that its arguments spell, and shows the same in the order
of its images. -/
theorem pooling_reduces_windows (bits : Nat) :
    (∀ {pool : Pooling} {dims : ImageDims} {input output : Tensor},
      input.type = ⟨.f32, ⟨dims.stored .channelsFirst⟩⟩ → output.dtype = .f32 →
      pool.outputShape input.shape = .ok output.shape →
      output.shape = ⟨(pool.resultDims dims).stored .channelsFirst⟩ ∧
      (Kernel.pooling pool input output = .error .windowPastEdge ↔ pool.PastEdge dims) ∧
      (¬pool.PastEdge dims → ∃ result, Kernel.pooling pool input output = .ok result ∧
        result.type = output.type ∧ PoolsPixels pool .channelsFirst dims input result) ∧
      (pool.FitsWords bits input.shape →
        pool.outputShapeInWords bits input.shape = .ok output.shape ∧
        Kernel.poolingInWords bits pool input output = Kernel.pooling pool input output)) ∧
    ∀ {mode : PoolMode} {op : Operator} {work last : Workspace} {value : Handle}
      {extents : List Nat},
      OperatorKind.parse? op.kind = some (poolKind mode) →
      work.HasInput op 0 value ⟨.f32, ⟨extents⟩⟩ →
      (operator op).run.run work = (.ok (), last) →
      ∃ order args global dims window, storageOrder op = .ok order ∧ SpellsWindow op args ∧
        op.flagArg "global_pooling" = .ok global ∧ extents = ImageDims.stored dims order ∧
        TakesWindow global args ⟨dims.height, dims.width⟩ window ∧
        window.Fits ⟨dims.height, dims.width⟩ ∧
        (global = true → ¬Pooling.PastEdge ⟨mode, window⟩ dims) ∧
        ∃ name result, op.outputs[0]? = some name ∧ last.env.get? name = some result ∧
          ∀ bindings a, IsPooled work order ⟨mode, window⟩ dims value bindings a result last := by
  constructor
  · intro pool dims input output hinput hdtype hshape
    have hinputShape : input.shape = ⟨dims.stored .channelsFirst⟩ :=
      congrArg TensorType.shape hinput
    have hderived := hshape
    rw [hinputShape] at hshape
    obtain ⟨hfits, houtputShape⟩ := Pooling.outputShape_eq_ok_iff.mp hshape
    have houtput : output.type = ⟨.f32, ⟨(pool.resultDims dims).stored .channelsFirst⟩⟩ :=
      Typing.type_eq_iff.mpr ⟨hdtype, houtputShape⟩
    obtain ⟨pixels, hdepicts⟩ := Tensor.exists_depicts hinput
    have hpools (hedge : ¬pool.PastEdge dims) :=
      Kernel.pooling_depicts hdepicts hfits houtput hedge
    refine ⟨houtputShape, ⟨fun hfails => ?_, fun hedge => ?_⟩, fun hedge => ?_, fun hwords =>
      ⟨(Pooling.outputShapeInWords_eq hwords).trans hderived,
        Kernel.poolingInWords_eq output hwords⟩⟩
    · by_contra hedge
      obtain ⟨result, hdone, -⟩ := hpools hedge
      cases hfails.symm.trans hdone
    · exact Kernel.pooling_eq_error hinput hfits houtput hedge
    · obtain ⟨result, hdone, hresult⟩ := hpools hedge
      exact ⟨result, hdone, hresult.type_eq.trans houtput.symm,
        poolsPixels_of_depicts hdepicts hresult⟩
  · intro mode op work last value extents hkind hvalue hrun
    have hoperator : operator op = pooling mode op := by
      rw [operator_eq hkind]
      cases mode <;> rfl
    rw [hoperator] at hrun
    obtain ⟨order, dims, window, rfl, hreads⟩ := reads_of_run_pooling hvalue hrun
    obtain ⟨args, global, hargs, hglobal, hwindow⟩ := hreads.window_eq
    have hpooled := BindsIff.forall fun bindings : Bindings => BindsIff.forall fun a =>
      @bindsIff_isPooled work bindings op value ⟨mode, window⟩ order dims hreads hvalue a
    obtain ⟨hfits, hresult⟩ := hpooled.ensures hrun
    refine ⟨order, args, global, dims, window, hreads.order_eq, spellsWindow_of_windowArgs hargs,
      hglobal, rfl, hwindow, hfits, ?_, hresult⟩
    rintro rfl
    exact not_pastEdge_of_global hwindow

/-- The greatest number of each channel, over images with their channels last. -/
def globalMaxPool : Operator :=
  ⟨"MaxPool", ["x"], ["y"], none,
    ⟨[("global_pooling", .int 1), ("order", .text "NHWC")], List.pairwise_pair.mpr (by decide)⟩⟩

def globalMaxPoolOperand : Workspace where
  graph := ⟨"global", #[
    ⟨"x", .variable .placeholder ⟨.f32, ⟨[1, 2, 2, 3]⟩⟩, [⟨.f32, ⟨[1, 2, 2, 3]⟩⟩]⟩]⟩
  env := ⟨[("x", .first 0)], by decide⟩

/-- A window of one cell, with padding on the right in which it still stops. -/
def paddedPool (right : Nat) : Pooling := ⟨.max, ⟨.square 1, .square 1, ⟨0, 0, 0, right⟩⟩⟩

theorem globalMaxPool_reduces_windows :
    Kernel.poolingInWords 4 (paddedPool 3) (Tensor.zeros .f32 ⟨[1, 1, 2, 2]⟩)
        (Tensor.zeros .f32 ⟨[1, 1, 2, 5]⟩) = .error .windowPastEdge ∧
      (∃ result, Kernel.pooling (paddedPool 1) (Tensor.zeros .f32 ⟨[1, 1, 2, 2]⟩)
        (Tensor.zeros .f32 ⟨[1, 1, 2, 3]⟩) = .ok result ∧ result.type = ⟨.f32, ⟨[1, 1, 2, 3]⟩⟩) ∧
      ∃ last value type result,
        (operator globalMaxPool).run.run globalMaxPoolOperand = (.ok (), last) ∧
        last.env.get? "y" = some value ∧
        last.HasValue (.ofList [("x", Tensor.zeros .f32 ⟨[1, 2, 2, 3]⟩)]) value type result := by
  refine ⟨?_, ?_, ?_⟩
  · have hkernel := @(pooling_reduces_windows 4).1 (paddedPool 3) ⟨1, 1, 2, 2⟩
      (Tensor.zeros .f32 ⟨[1, 1, 2, 2]⟩) (Tensor.zeros .f32 ⟨[1, 1, 2, 5]⟩) rfl rfl rfl
    obtain ⟨-, hfails, -, hwords⟩ := hkernel
    exact (hwords (by decide)).2.trans (hfails.mpr (by decide))
  · have hkernel := @(pooling_reduces_windows 4).1 (paddedPool 1) ⟨1, 1, 2, 2⟩
      (Tensor.zeros .f32 ⟨[1, 1, 2, 2]⟩) (Tensor.zeros .f32 ⟨[1, 1, 2, 3]⟩) rfl rfl rfl
    obtain ⟨result, hdone, htype, -⟩ := hkernel.2.2.1 (by decide)
    exact ⟨result, hdone, htype⟩
  · obtain ⟨last, hrun⟩ : ∃ last,
        (operator globalMaxPool).run.run globalMaxPoolOperand = (.ok (), last) := ⟨_, rfl⟩
    obtain ⟨order, -, global, dims, window, -, -, hglobal, hdims, -, -, hedge, name, value, hname,
        hvalue, hresult⟩ :=
      @(pooling_reduces_windows 4).2 .max globalMaxPool globalMaxPoolOperand last (.first 0)
        [1, 2, 2, 3] rfl ⟨⟨"x", rfl, rfl⟩, rfl⟩ hrun
    obtain rfl : "y" = name := Option.some.inj hname
    obtain rfl : true = global := Except.ok.inj hglobal
    have hx : globalMaxPoolOperand.HasValue (.ofList [("x", Tensor.zeros .f32 ⟨[1, 2, 2, 3]⟩)])
        (.first 0) ⟨.f32, ⟨dims.stored order⟩⟩ (Tensor.zeros .f32 ⟨[1, 2, 2, 3]⟩) := by
      rw [← hdims]
      exact ⟨(Graph.evaluate_eq _ _ rfl).trans rfl, rfl⟩
    obtain ⟨result, hresult, -⟩ := (hresult _ _).evaluates hx (hedge rfl)
    exact ⟨last, value, _, result, hrun, hvalue, hresult⟩

/-- A padding of more than half of the words, and a stride that comes to its end. -/
def deepPadding : Pooling := ⟨.max, ⟨.square 1, ⟨1, twoPow 63 + 100⟩, ⟨0, twoPow 63 + 100, 0, 0⟩⟩⟩

/-- In words of 64 bits the padding is taken for a negative number, and the window in the
padding for one behind the input. -/
theorem deepPadding_fails_in_words :
    deepPadding.outputShapeInWords 64 ⟨[1, 1, 1, 1]⟩ = .ok ⟨[1, 1, 1, 2]⟩ ∧
      deepPadding.outputShape ⟨[1, 1, 1, 1]⟩ = .ok ⟨[1, 1, 1, 2]⟩ ∧
      ¬deepPadding.PastEdge ⟨1, 1, 1, 1⟩ ∧
      Kernel.poolingInWords 64 deepPadding (Tensor.zeros .f32 ⟨[1, 1, 1, 1]⟩)
        (Tensor.zeros .f32 ⟨[1, 1, 1, 2]⟩) = .error .windowPastEdge :=
  ⟨rfl, rfl, by decide, rfl⟩

end Lowering
end NetImport
