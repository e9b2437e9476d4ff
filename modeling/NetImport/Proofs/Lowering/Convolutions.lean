import NetImport.Proofs.Kernel.Convolved
import NetImport.Proofs.Kernel.WindowWords
import NetImport.Proofs.Lowering.Images
import NetImport.Proofs.Lowering.Stacks
import NetImport.Proofs.Lowering.WindowArguments

/-!
# Convolutions by their pixels

An operator that convolves images takes its window, its groups and its storage order from its
arguments.  Whatever the order, the pixels of the result are the sums over the window.
-/

namespace NetImport

open Lowering (StorageOrder)

/-- What the sums of a convolution start from under some bindings: the bias of each channel,
or zero. -/
inductive Workspace.BiasValue (work : Workspace) (bindings : Bindings) (count : Nat) :
    Option Handle → (Nat → Option Float32) → Prop
  | absent : work.BiasValue bindings count none fun _ => some 0.0
  | present {bias : Handle} {tensor : Tensor}
      (hvalue : work.HasValue bindings bias ⟨.f32, Shape.vector count⟩ tensor) :
      work.BiasValue bindings count (some bias) fun channel => tensor.at? .f32 [channel]

theorem Workspace.BiasValue.mono {work next : Workspace} {bindings : Bindings} {count : Nat}
    {bias? : Option Handle} {start : Nat → Option Float32}
    (hbias : work.BiasValue bindings count bias? start) (hcomputes : work.Computes next) :
    next.BiasValue bindings count bias? start := by
  cases hbias with
  | absent => exact .absent
  | present hvalue => exact .present (hvalue.mono hcomputes)

theorem Workspace.BiasValue.exists_starts {work : Workspace} {bindings : Bindings} {count : Nat}
    {bias? : Option Handle} {start : Nat → Option Float32}
    (hbias : work.BiasValue bindings count bias? start) :
    ∃ tensor?, bias?.mapM (fun bias => work.graph.evaluate bindings bias.node) = .ok tensor? ∧
      Kernel.Starts tensor? count (fun channel => (start channel).getD 0.0) ∧
      ∀ channel < count, start channel = some ((start channel).getD 0.0) := by
  cases hbias with
  | absent => exact ⟨none, rfl, Kernel.starts_none count, fun channel hchannel => rfl⟩
  | @present bias tensor hvalue =>
      have hproduct : product [count] = 1 * (1 * count) := by simp
      obtain ⟨y, hstacks⟩ := Tensor.exists_stacks_of_product hvalue.type_eq hproduct
      refine ⟨some tensor, ?_, ?_, fun channel hchannel => ?_⟩
      · rw [Option.mapM_some, hvalue.evaluates]
        rfl
      · obtain ⟨elements, helements, hstart⟩ := Kernel.starts_some hstacks
        refine ⟨elements, helements, fun channel hchannel => ?_⟩
        dsimp only
        rw [hstart channel hchannel, hstacks.at?_row hchannel, Option.getD_some]
      · dsimp only
        rw [hstacks.at?_row hchannel, Option.getD_some]

namespace Lowering

variable {work : Workspace} {bindings : Bindings} {given : Prop} {op : Operator} {name : String}
  {value filter : Handle} {bias? : Option Handle} {conv : Convolution} {order : StorageOrder}
  {xDims wDims : ImageDims} {x w : Pixels} {start : Nat → Float32}

theorem succeedsIff_convolve
    (hvalue : work.Depicts bindings given value .channelsFirst xDims (.ok x))
    (hfilter : work.Depicts bindings given filter .channelsFirst wDims (.ok w))
    (hbias : given → ∃ tensor?,
      bias?.mapM (fun bias => work.graph.evaluate bindings bias.node) = .ok tensor? ∧
        Kernel.Starts tensor? wDims.count start) :
    SucceedsIff (build op fun graph => graph.convolution name value filter bias? conv) work
      (conv.Fits xDims wDims ∧
        ∀ bias ∈ bias?, work.graph.valueType bias = .ok ⟨.f32, Shape.vector wDims.count⟩)
      fun value last => last.Depicts bindings given value .channelsFirst
        (conv.resultDims xDims wDims) (.ok (conv.convolved xDims wDims x w start)) := by
  have hkind : (NodeKind.convolution value filter bias? conv).Computes := trivial
  have hinfer (types : List TensorType) :
      Typing.infer (.convolution value filter bias? conv) work.graph.nodes = .ok types ↔
        (conv.Fits xDims wDims ∧
          ∀ bias ∈ bias?, work.graph.valueType bias = .ok ⟨.f32, Shape.vector wDims.count⟩) ∧
        types = [⟨.f32, ⟨(conv.resultDims xDims wDims).stored .channelsFirst⟩⟩] := by
    have hx : Typing.operand work.graph.nodes value =
        .ok ⟨.f32, ⟨xDims.stored .channelsFirst⟩⟩ := hvalue.type_eq
    have hw : Typing.operand work.graph.nodes filter =
        .ok ⟨.f32, ⟨wDims.stored .channelsFirst⟩⟩ := hfilter.type_eq
    simp only [Typing.infer, hx, hw, ok_bind, bind_eq_ok_iff, pure_eq_ok_iff,
      Typing.convolutionType_eq_ok_iff, Convolution.outputShape_eq_ok_iff, true_and]
    constructor
    · rintro ⟨type, ⟨hdtype, ⟨hfits, hshape⟩, htyped⟩, rfl⟩
      refine ⟨⟨hfits, htyped⟩, ?_⟩
      rw [show type = ⟨.f32, _⟩ from Typing.type_eq_iff.mpr ⟨hdtype, hshape⟩]
    · rintro ⟨⟨hfits, htyped⟩, rfl⟩
      exact ⟨_, ⟨rfl, ⟨hfits, rfl⟩, htyped⟩, rfl⟩
  refine (succeedsIff_build (fun _ => rfl) hkind hinfer).mono fun hfits _ hresult => ?_
  refine ⟨hresult.1, fun hgiven => ?_⟩
  obtain ⟨a, ha, hadepicts⟩ := hvalue.shows hgiven
  obtain ⟨b, hb, hbdepicts⟩ := hfilter.shows hgiven
  obtain ⟨tensor?, htensor, hstarts⟩ := hbias hgiven
  obtain ⟨result, hdone, hdepicts⟩ :=
    Kernel.convolution_depicts hfits.1 hadepicts hbdepicts hstarts
  refine ⟨result, ?_, hdepicts⟩
  rw [hresult.2 bindings]
  simp only [Engine.applyKernel, htensor, ha, hb, ok_bind]
  exact hdone

/-- The convolution that the arguments of an operator ask for, with a filter of some extents. -/
structure ReadsConvolution (op : Operator) (order : StorageOrder) (filter : Plane)
    (conv : Convolution) : Prop where
  order_eq : storageOrder op = .ok order
  group_eq : op.naturalArg "group" 1 = .ok conv.group
  window_eq : ∃ args, windowArgs op = .ok args ∧
    conv.window = ⟨args.kernel.getD filter, args.stride, args.padding⟩

theorem bindsIff_convolution (hreads : ReadsConvolution op order ⟨wDims.height, wDims.width⟩ conv)
    (hvalue : work.HasInput op 0 value ⟨.f32, ⟨xDims.stored order⟩⟩)
    (hfilter : work.HasInput op 1 filter ⟨.f32, ⟨wDims.stored order⟩⟩)
    (hoptional : work.OptionalInput op 2 bias?)
    (hdefined : ∀ bias ∈ bias?, ∃ type, work.graph.valueType bias = .ok type)
    (hx : work.Depicts bindings given value order xDims (.ok x))
    (hw : work.Depicts bindings given filter order wDims (.ok w))
    {start : Nat → Option Float32}
    (hbias : given → work.BiasValue bindings wDims.count bias? start) :
    BindsIff op (convolution op) work
      (conv.Fits xDims wDims ∧
        ∀ bias ∈ bias?, work.graph.valueType bias = .ok ⟨.f32, Shape.vector wDims.count⟩)
      fun value last => last.Depicts bindings given value order (conv.resultDims xDims wDims)
        (.ok (conv.convolved xDims wDims x w fun channel => (start channel).getD 0.0)) := by
  obtain ⟨args, hargs, hwindow⟩ := hreads.window_eq
  have hgroup := hreads.group_eq
  obtain ⟨window, group⟩ := conv
  obtain rfl : window = _ := hwindow
  unfold convolution
  refine bindsIff_bind_of_run (run_ofExcept hreads.order_eq) ?_
  refine bindsIff_bind_of_run (run_ofExcept hargs) ?_
  refine bindsIff_bind_of_run (run_ofExcept hgroup) ?_
  refine bindsIff_bind_of_run (run_input hvalue) ?_
  refine bindsIff_bind_of_run (run_input hfilter) ?_
  refine bindsIff_bind_of_run (run_optionalInput hoptional) ?_
  refine bindsIff_bind_of_run (run_requireRankFour hvalue.typed (ImageDims.length_stored ..)) ?_
  refine bindsIff_bind_of_run (run_requireRankFour hfilter.typed (ImageDims.length_stored ..)) ?_
  refine bindsIff_bind_of_succeeds (succeeds_toChannelsFirst hx) ?_
  intro x' afterX hafterX hx
  refine bindsIff_bind_of_succeeds (succeeds_toChannelsFirst (hw.mono hafterX)) ?_
  intro w' afterW hafterW hw
  refine bindsIff_bind_of_run (run_imagePlane hw) ?_
  have hcomputes := hafterX.trans hafterW
  have hconvolved := @succeedsIff_convolve afterW bindings given op op.label x' w' bias?
    ⟨⟨args.kernel.getD ⟨wDims.height, wDims.width⟩, args.stride, args.padding⟩, group⟩ xDims wDims
    x w _ (hx.mono hafterW) hw fun hgiven => by
      obtain ⟨tensor?, hread, hstarts, -⟩ := ((hbias hgiven).mono hcomputes).exists_starts
      exact ⟨tensor?, hread, hstarts⟩
  refine (bindsIff_bind hconvolved fun result next hnext hresult =>
    bindsIff_bindResult hresult).of_iff ?_
  rw [and_true]
  refine and_congr_right fun _ => forall₂_congr fun bias hmem => ?_
  obtain ⟨type, htype⟩ := hdefined bias hmem
  rw [htype, hcomputes.valueType_eq htype]

/-! ## Convolutions of tensors -/

/-- A value of the last workspace shows the convolution of two values of the first, for some
tensors of these. -/
structure IsConvolved (work : Workspace) (order : StorageOrder) (conv : Convolution)
    (xDims wDims : ImageDims) (value filter : Handle) (bias? : Option Handle)
    (bindings : Bindings) (a b : Tensor) (start : Nat → Option Float32) (result : Handle)
    (last : Workspace) : Prop where
  typed : last.graph.valueType result = .ok ⟨.f32, ⟨(conv.resultDims xDims wDims).stored order⟩⟩
  evaluates : work.HasValue bindings value ⟨.f32, ⟨xDims.stored order⟩⟩ a →
    work.HasValue bindings filter ⟨.f32, ⟨wDims.stored order⟩⟩ b →
    work.BiasValue bindings wDims.count bias? start →
    ∃ y, last.HasValue bindings result ⟨.f32, ⟨(conv.resultDims xDims wDims).stored order⟩⟩ y ∧
      ∀ {n output row column}, (conv.resultDims xDims wDims).Contains n output row column →
        ∃ sum, y.pixel? order n output row column = some sum ∧
          conv.sum? xDims wDims order a b (start output) n output row column = some sum

theorem bindsIff_isConvolved
    (hreads : ReadsConvolution op order ⟨wDims.height, wDims.width⟩ conv)
    (hvalue : work.HasInput op 0 value ⟨.f32, ⟨xDims.stored order⟩⟩)
    (hfilter : work.HasInput op 1 filter ⟨.f32, ⟨wDims.stored order⟩⟩)
    (hoptional : work.OptionalInput op 2 bias?)
    (hdefined : ∀ bias ∈ bias?, ∃ type, work.graph.valueType bias = .ok type)
    (a b : Tensor) (start : Nat → Option Float32) :
    BindsIff op (convolution op) work
      (conv.Fits xDims wDims ∧
        ∀ bias ∈ bias?, work.graph.valueType bias = .ok ⟨.f32, Shape.vector wDims.count⟩)
      (IsConvolved work order conv xDims wDims value filter bias? bindings a b start) := by
  let given := work.HasValue bindings value ⟨.f32, ⟨xDims.stored order⟩⟩ a ∧
    work.HasValue bindings filter ⟨.f32, ⟨wDims.stored order⟩⟩ b ∧
    work.BiasValue bindings wDims.count bias? start
  obtain ⟨x, ha, hx⟩ := @Workspace.exists_depicts _ bindings given _ _ _ a hvalue.typed And.left
  obtain ⟨w, hb, hw⟩ := @Workspace.exists_depicts _ bindings given _ _ _ b hfilter.typed
    fun hgiven => hgiven.2.1
  have hbias (hgiven : given) : work.BiasValue bindings wDims.count bias? start := hgiven.2.2
  have hconvolved := bindsIff_convolution hreads hvalue hfilter hoptional hdefined hx hw hbias
  refine hconvolved.mono fun hfits hdepicts => ⟨hdepicts.type_eq, fun hleft hright hlast => ?_⟩
  have hgiven : given := ⟨hleft, hright, hlast⟩
  obtain ⟨y, hy, hshown⟩ := hdepicts.shows hgiven
  obtain ⟨-, -, -, hstart⟩ := hlast.exists_starts
  refine ⟨y, ⟨hy, hshown.type_eq⟩, fun {n output row column} hcontains => ?_⟩
  refine ⟨_, hshown.pixel?_eq hcontains, ?_⟩
  rw [hstart output hcontains.channel]
  exact Convolution.sum?_eq_some hfits.1 (ha hgiven) (hb hgiven)
    (fun channel => (start channel).getD 0.0) hcontains.count hcontains.channel row column

/-- What a convolution that is lowered has read. -/
theorem reads_of_run_convolution {last : Workspace} {xExtents wExtents : List Nat}
    (hvalue : work.HasInput op 0 value ⟨.f32, ⟨xExtents⟩⟩)
    (hfilter : work.HasInput op 1 filter ⟨.f32, ⟨wExtents⟩⟩)
    (hrun : (convolution op).run.run work = (.ok (), last)) :
    ∃ order conv xDims wDims bias?, xExtents = ImageDims.stored xDims order ∧
      wExtents = ImageDims.stored wDims order ∧
      ReadsConvolution op order ⟨wDims.height, wDims.width⟩ conv ∧
      work.OptionalInput op 2 bias? := by
  unfold convolution at hrun
  obtain ⟨order, horder, hwindow⟩ := run_ofExcept_bind_eq_ok_iff.mp hrun
  obtain ⟨args, hargs, hgrouped⟩ := run_ofExcept_bind_eq_ok_iff.mp hwindow
  obtain ⟨group, hgroup, hinputs⟩ := run_ofExcept_bind_eq_ok_iff.mp hgrouped
  rw [run_bind, run_input hvalue] at hinputs
  dsimp only at hinputs
  rw [run_bind, run_input hfilter] at hinputs
  obtain ⟨bias?, afterBias, hbias, hranks⟩ := run_bind_eq_ok_iff.mp hinputs
  obtain ⟨hoptional, hsame⟩ := optionalInput_of_run hbias
  rw [hsame] at hranks
  obtain ⟨_, afterInput, hinput, hrest⟩ := run_bind_eq_ok_iff.mp hranks
  obtain ⟨hxLength, hsame⟩ := length_of_run_requireRankFour hvalue.typed hinput
  rw [hsame] at hrest
  obtain ⟨_, _, hweights, -⟩ := run_bind_eq_ok_iff.mp hrest
  obtain ⟨hwLength, -⟩ := length_of_run_requireRankFour hfilter.typed hweights
  obtain ⟨xDims, hxDims⟩ := exists_stored order hxLength
  obtain ⟨wDims, hwDims⟩ := exists_stored order hwLength
  exact ⟨order, ⟨⟨args.kernel.getD ⟨wDims.height, wDims.width⟩, args.stride, args.padding⟩, group⟩,
    xDims, wDims, bias?, hxDims, hwDims, ⟨horder, hgroup, args, hargs, rfl⟩, hoptional⟩

/-- A convolution that is lowered has read its window, its groups and its order from the
arguments, in whichever spelling, and its extents fit.  In the order of the images, every
pixel of the result is the sum over the window, from the bias of its channel on.  The shape of
the result and the kernel are the same in words, where twice the padded extents and the
channels of the groups are words. -/
theorem convolution_sums_windows {last : Workspace} {xExtents wExtents : List Nat}
    (hkind : OperatorKind.parse? op.kind = some .conv)
    (hvalue : work.HasInput op 0 value ⟨.f32, ⟨xExtents⟩⟩)
    (hfilter : work.HasInput op 1 filter ⟨.f32, ⟨wExtents⟩⟩)
    (hdefined : ∀ bias, work.OptionalInput op 2 (some bias) →
      ∃ type, work.graph.valueType bias = .ok type)
    (hrun : (operator op).run.run work = (.ok (), last)) :
    ∃ order args conv xDims wDims bias?,
      storageOrder op = .ok order ∧ SpellsWindow op args ∧
      op.naturalArg "group" 1 = .ok conv.group ∧
      conv.window = ⟨args.kernel.getD ⟨wDims.height, wDims.width⟩, args.stride, args.padding⟩ ∧
      xExtents = ImageDims.stored xDims order ∧ wExtents = ImageDims.stored wDims order ∧
      work.OptionalInput op 2 bias? ∧ Convolution.Fits conv xDims wDims ∧
      (∀ bias ∈ bias?, work.graph.valueType bias = .ok ⟨.f32, Shape.vector wDims.count⟩) ∧
      (∃ name result, op.outputs[0]? = some name ∧ last.env.get? name = some result ∧
        ∀ bindings a b start,
          IsConvolved work order conv xDims wDims value filter bias? bindings a b start result
            last) ∧
      ∀ bits, conv.FitsWords bits ⟨xDims.stored .channelsFirst⟩ ⟨wDims.stored .channelsFirst⟩ →
        conv.outputShapeInWords bits ⟨xDims.stored .channelsFirst⟩
            ⟨wDims.stored .channelsFirst⟩ =
          .ok ⟨(conv.resultDims xDims wDims).stored .channelsFirst⟩ ∧
        ∀ x w : Tensor, x.shape = ⟨xDims.stored .channelsFirst⟩ →
          w.shape = ⟨wDims.stored .channelsFirst⟩ → ∀ (starts : Option Tensor) (output : Tensor),
            Kernel.convolutionInWords bits conv x w starts output =
              liftM (Kernel.convolution conv x w starts output) := by
  rw [operator_eq hkind] at hrun
  obtain ⟨order, conv, xDims, wDims, bias?, rfl, rfl, hreads, hoptional⟩ :=
    reads_of_run_convolution hvalue hfilter hrun
  obtain ⟨args, hargs, hwindow⟩ := hreads.window_eq
  have hbias : ∀ bias ∈ bias?, ∃ type, work.graph.valueType bias = .ok type := by
    rintro bias rfl
    exact hdefined bias hoptional
  have hconvolved := BindsIff.forall fun bindings : Bindings => BindsIff.forall fun a =>
    BindsIff.forall fun b => BindsIff.forall fun start =>
      @bindsIff_isConvolved work bindings op value filter bias? conv order xDims wDims hreads hvalue
        hfilter hoptional hbias a b start
  obtain ⟨⟨hfits, htyped⟩, hresult⟩ := hconvolved.ensures hrun
  refine ⟨order, args, conv, xDims, wDims, bias?, hreads.order_eq, spellsWindow_of_windowArgs hargs,
    hreads.group_eq, hwindow, rfl, rfl, hoptional, hfits, htyped, hresult, fun bits hwords => ?_⟩
  refine ⟨(Convolution.outputShapeInWords_eq hwords).trans
    (Convolution.outputShape_eq_ok_iff.mpr ⟨hfits, rfl⟩), fun x w hx hw starts output => ?_⟩
  rw [← hx, ← hw] at hwords
  exact Kernel.convolutionInWords_eq starts output hwords

/-- A convolution of two groups over images with their channels last. -/
def groupedConvolution : Operator :=
  ⟨"Conv", ["x", "w", "b"], ["y"], none,
    ⟨[("group", .int 2), ("order", .text "NHWC")], List.pairwise_pair.mpr (by decide)⟩⟩

def groupedOperands : Workspace where
  graph := ⟨"grouped", #[
    ⟨"x", .variable .placeholder ⟨.f32, ⟨[1, 3, 3, 2]⟩⟩, [⟨.f32, ⟨[1, 3, 3, 2]⟩⟩]⟩,
    ⟨"w", .variable .placeholder ⟨.f32, ⟨[2, 2, 2, 1]⟩⟩, [⟨.f32, ⟨[2, 2, 2, 1]⟩⟩]⟩,
    ⟨"b", .variable .placeholder ⟨.f32, ⟨[2]⟩⟩, [⟨.f32, ⟨[2]⟩⟩]⟩]⟩
  env := ⟨[("x", .first 0), ("w", .first 1), ("b", .first 2)], (by decide : ["x", "w", "b"].Nodup)⟩

def groupedBindings : Bindings :=
  .ofList [("x", Tensor.zeros .f32 ⟨[1, 3, 3, 2]⟩), ("w", Tensor.zeros .f32 ⟨[2, 2, 2, 1]⟩),
    ("b", Tensor.zeros .f32 ⟨[2]⟩)]

theorem groupedConvolution_sums_windows :
    ∃ last value type result,
      (operator groupedConvolution).run.run groupedOperands = (.ok (), last) ∧
      last.env.get? "y" = some value ∧ last.HasValue groupedBindings value type result := by
  have hx : groupedOperands.HasValue groupedBindings (.first 0) ⟨.f32, ⟨[1, 3, 3, 2]⟩⟩
      (Tensor.zeros .f32 ⟨[1, 3, 3, 2]⟩) := ⟨(Graph.evaluate_eq _ _ rfl).trans rfl, rfl⟩
  have hw : groupedOperands.HasValue groupedBindings (.first 1) ⟨.f32, ⟨[2, 2, 2, 1]⟩⟩
      (Tensor.zeros .f32 ⟨[2, 2, 2, 1]⟩) := ⟨(Graph.evaluate_eq _ _ rfl).trans rfl, rfl⟩
  have hb : groupedOperands.HasValue groupedBindings (.first 2) ⟨.f32, ⟨[2]⟩⟩
      (Tensor.zeros .f32 ⟨[2]⟩) := ⟨(Graph.evaluate_eq _ _ rfl).trans rfl, rfl⟩
  have honly : ∀ bias, groupedOperands.OptionalInput groupedConvolution 2 (some bias) →
      bias = .first 2 := by
    rintro bias ⟨name, hname, hbias⟩
    obtain rfl : "b" = name := Option.some.inj hname
    exact (Option.some.inj hbias).symm
  have hdefined : ∀ bias, groupedOperands.OptionalInput groupedConvolution 2 (some bias) →
      ∃ type, groupedOperands.graph.valueType bias = .ok type := by
    intro bias hbias
    rw [honly bias hbias]
    exact ⟨_, rfl⟩
  obtain ⟨last, hrun⟩ : ∃ last,
      (operator groupedConvolution).run.run groupedOperands = (.ok (), last) := ⟨_, rfl⟩
  obtain ⟨order, -, conv, xDims, wDims, bias?, -, -, -, -, hxDims, hwDims, hoptional, -, htyped,
      ⟨name, value, hname, hvalue, hresult⟩, -⟩ :=
    @convolution_sums_windows groupedOperands groupedConvolution (.first 0) (.first 1) last
      [1, 3, 3, 2] [2, 2, 2, 1] rfl ⟨⟨"x", rfl, rfl⟩, rfl⟩ ⟨⟨"w", rfl, rfl⟩, rfl⟩ hdefined
      hrun
  obtain rfl : "y" = name := Option.some.inj hname
  cases bias? with
  | none => exact absurd hoptional (show ¬3 ≤ 2 by decide)
  | some bias =>
      obtain rfl := honly bias hoptional
      have hcount : (⟨.f32, ⟨[2]⟩⟩ : TensorType) = ⟨.f32, Shape.vector wDims.count⟩ :=
        Except.ok.inj (htyped _ rfl)
      rw [hxDims] at hx
      rw [hwDims] at hw
      rw [hcount] at hb
      obtain ⟨result, hresult, -⟩ :=
        (hresult groupedBindings _ _ _).evaluates hx hw (.present hb)
      exact ⟨last, value, _, result, hrun, hvalue, hresult⟩

/-- A padding that comes to more rows than there are words. -/
def tallConvolution : Convolution :=
  ⟨⟨.square 1, .square 1, ⟨twoPow 63 - 1, twoPow 63 - 1, twoPow 63 - 1, 0⟩⟩, 1⟩

/-- In words of 64 bits the rows of the result are the ones that are left. -/
theorem tallConvolution_loses_rows :
    tallConvolution.outputShape ⟨[1, 1, 4, 1]⟩ ⟨[1, 1, 1, 1]⟩ =
        .ok ⟨[1, 1, twoPow 64 + 2, twoPow 63]⟩ ∧
      tallConvolution.outputShapeInWords 64 ⟨[1, 1, 4, 1]⟩ ⟨[1, 1, 1, 1]⟩ =
        .ok ⟨[1, 1, 2, twoPow 63]⟩ :=
  ⟨rfl, rfl⟩

end Lowering
end NetImport
