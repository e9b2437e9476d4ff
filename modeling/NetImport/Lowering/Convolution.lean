import NetImport.Lowering.Basic

/-!
# Lowering convolutions and pooling

A window can be given by one number for both axes, by a list, or by one argument
for each side.  Activations may be stored with the channels last; they are
transposed on the way in, and the result on the way out.
-/

namespace NetImport
namespace Lowering

inductive StorageOrder where
  | channelsFirst
  | channelsLast
deriving DecidableEq, Repr

def storageOrder (op : Operator) : Except LoadError StorageOrder := do
  match ← op.textArg? "order" with
  | none => return .channelsFirst
  | some "NCHW" => return .channelsFirst
  | some "NHWC" => return .channelsLast
  | some other => .error (op.malformed "order" s!"unknown storage order '{other}'")

structure PairNames where
  scalar : String
  list : String
  vertical : String
  horizontal : String

def kernelNames : PairNames := ⟨"kernel", "kernels", "kernel_h", "kernel_w"⟩

def strideNames : PairNames := ⟨"stride", "strides", "stride_h", "stride_w"⟩

def planeArg? (op : Operator) (names : PairNames) : Except LoadError (Option Plane) := do
  match ← op.naturalArg? names.scalar with
  | some side => return some (.square side)
  | none =>
      match ← op.naturalsArg? names.list with
      | some [height, width] => return some ⟨height, width⟩
      | some values =>
          .error (op.malformed names.list s!"expected 2 values, got {values.length}")
      | none =>
          match ← op.naturalArg? names.vertical, ← op.naturalArg? names.horizontal with
          | some height, some width => return some ⟨height, width⟩
          | none, none => return none
          | _, _ =>
              .error (op.malformed names.vertical
                s!"'{names.vertical}' and '{names.horizontal}' must be given together")

def paddingArg (op : Operator) : Except LoadError Padding := do
  match ← op.naturalArg? "pad" with
  | some side => return ⟨side, side, side, side⟩
  | none =>
      match ← op.naturalsArg? "pads" with
      | some [top, left, bottom, right] => return ⟨top, left, bottom, right⟩
      | some values =>
          .error (op.malformed "pads" s!"expected 4 values, got {values.length}")
      | none =>
          let top ← op.naturalArg "pad_t" 0
          let left ← op.naturalArg "pad_l" 0
          let bottom ← op.naturalArg "pad_b" 0
          let right ← op.naturalArg "pad_r" 0
          return ⟨top, left, bottom, right⟩

/-- Windows have no gaps. -/
def checkDilation (op : Operator) : Except LoadError Unit := do
  ["dilation", "dilation_h", "dilation_w"].forM fun arg => do
    if (← op.naturalArg arg 1) ≠ 1 then
      .error (op.malformed arg "only dilation 1 is supported")
  match ← op.naturalsArg? "dilations" with
  | none => return ()
  | some dilations =>
      if dilations.any fun dilation => dilation != 1 then
        .error (op.malformed "dilations" "only dilation 1 is supported")

/-- A window as the arguments give it; the kernel may be left open. -/
structure WindowArgs where
  kernel : Option Plane
  stride : Plane
  padding : Padding

def windowArgs (op : Operator) : Except LoadError WindowArgs := do
  let kernel ← planeArg? op kernelNames
  let stride := (← planeArg? op strideNames).getD (.square 1)
  let padding ← paddingArg op
  checkDilation op
  return ⟨kernel, stride, padding⟩

/-- Transposes a value to channels first. -/
def toChannelsFirst (op : Operator) (order : StorageOrder) (value : Handle)
    (suffix : String) : Lowering Handle :=
  match order with
  | .channelsFirst => return value
  | .channelsLast =>
      build op fun graph => graph.transpose (nodeName op suffix) value [0, 3, 1, 2]

/-- Binds a result with channels first, transposed to the order of the operator. -/
def bindResult (op : Operator) (order : StorageOrder) (value : Handle) : Lowering Unit := do
  match order with
  | .channelsFirst => bindOutput op 0 value
  | .channelsLast =>
      bindOutput op 0
        (← build op fun graph => graph.transpose (nodeName op "to_nhwc") value [0, 2, 3, 1])

def requireRankFour (op : Operator) (what : String) (value : Handle) : Lowering Unit := do
  let dims ← dimsOf op value
  if dims.length ≠ 4 then
    throw (shapeError op s!"{what} must be 4-D, got {Kernel.listText dims}")

/-- The extents of the two image axes of a value with channels first. -/
def imagePlane (op : Operator) (value : Handle) : Lowering Plane := do
  let dims ← dimsOf op value
  return ⟨← extentAt op dims 2, ← extentAt op dims 3⟩

/-- Without a kernel argument the kernel is that of the filter. -/
def convolution (op : Operator) : Lowering Unit := do
  let order ← ofExcept (storageOrder op)
  let window ← ofExcept (windowArgs op)
  let group ← ofExcept (op.naturalArg "group" 1)
  let value ← input op 0
  let filter ← input op 1
  let bias ← optionalInput op 2
  requireRankFour op "input" value
  requireRankFour op "filter" filter
  let value ← toChannelsFirst op order value "input_nchw"
  let filter ← toChannelsFirst op order filter "filter_nchw"
  let plane ← imagePlane op filter
  let params : Convolution :=
    ⟨⟨window.kernel.getD plane, window.stride, window.padding⟩, group⟩
  let result ← build op fun graph => graph.convolution op.label value filter bias params
  bindResult op order result

/-- Global pooling takes the whole image for its window, whatever is given besides. -/
def pooling (mode : PoolMode) (op : Operator) : Lowering Unit := do
  let order ← ofExcept (storageOrder op)
  let args ← ofExcept (windowArgs op)
  let global ← ofExcept (op.flagArg "global_pooling")
  let value ← input op 0
  requireRankFour op "input" value
  let value ← toChannelsFirst op order value "input_nchw"
  let plane ← imagePlane op value
  let window : Window ←
    if global then pure ⟨plane, .square 1, ⟨0, 0, 0, 0⟩⟩
    else
      match args.kernel with
      | some kernel => pure ⟨kernel, args.stride, args.padding⟩
      | none => throw (op.malformed "kernel" "required unless global_pooling is set")
  let result ← build op fun graph => graph.pooling op.label value ⟨mode, window⟩
  bindResult op order result

end Lowering
end NetImport
