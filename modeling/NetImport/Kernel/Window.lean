import NetImport.Tensor.Shape

/-!
# Sliding windows

Convolution and pooling move a window over a padded plane.  On each axis the
window stops at every multiple of the stride where it lies within the padded
extent.
-/

namespace NetImport

structure Plane where
  height : Nat
  width : Nat
deriving DecidableEq, Repr, Inhabited

structure Padding where
  top : Nat
  left : Nat
  bottom : Nat
  right : Nat
deriving DecidableEq, Repr, Inhabited

structure Window where
  kernel : Plane
  stride : Plane
  padding : Padding
deriving DecidableEq, Repr, Inhabited

namespace Plane

def square (side : Nat) : Plane := ⟨side, side⟩

def text (plane : Plane) : String :=
  bracketed [toString plane.height, toString plane.width]

end Plane

def windowStops? (kernel stride before after extent : Nat) : Option Nat :=
  if kernel = 0 ∨ stride = 0 then none
  else if extent + before + after < kernel then none
  else some ((extent + before + after - kernel) / stride + 1)

namespace Window

/-- The extents of the result on a plane, when the window fits at all. -/
def output? (window : Window) (input : Plane) : Option Plane := do
  let height ← windowStops? window.kernel.height window.stride.height
    window.padding.top window.padding.bottom input.height
  let width ← windowStops? window.kernel.width window.stride.width
    window.padding.left window.padding.right input.width
  return ⟨height, width⟩

end Window

/-- The cells of one window on one axis that lie inside the input: pairs of the
place in the window and the place in the input. -/
def axisTaps (kernel start padding extent : Nat) : List (Nat × Nat) :=
  (List.range kernel).filterMap fun i =>
    if padding ≤ start + i ∧ start + i - padding < extent then
      some (i, start + i - padding)
    else none

end NetImport
