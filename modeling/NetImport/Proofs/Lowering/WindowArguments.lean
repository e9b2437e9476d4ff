import NetImport.Lowering.Convolution
import NetImport.Proofs.Sequencing

/-!
# Windows as the arguments spell them

The extents of a window are given by one number, by a list or by one argument for each side,
and the first of these that is present counts.
-/

namespace NetImport
namespace Lowering

variable {op : Operator}

/-- The arguments give two extents, or none. -/
inductive SpellsPlane (op : Operator) (names : PairNames) : Option Plane → Prop
  | square {side : Nat} (hscalar : op.naturalArg? names.scalar = .ok (some side)) :
      SpellsPlane op names (some ⟨side, side⟩)
  | listed {height width : Nat} (hscalar : op.naturalArg? names.scalar = .ok none)
      (hlist : op.naturalsArg? names.list = .ok (some [height, width])) :
      SpellsPlane op names (some ⟨height, width⟩)
  | sides {height width : Nat} (hscalar : op.naturalArg? names.scalar = .ok none)
      (hlist : op.naturalsArg? names.list = .ok none)
      (hvertical : op.naturalArg? names.vertical = .ok (some height))
      (hhorizontal : op.naturalArg? names.horizontal = .ok (some width)) :
      SpellsPlane op names (some ⟨height, width⟩)
  | absent (hscalar : op.naturalArg? names.scalar = .ok none)
      (hlist : op.naturalsArg? names.list = .ok none)
      (hvertical : op.naturalArg? names.vertical = .ok none)
      (hhorizontal : op.naturalArg? names.horizontal = .ok none) :
      SpellsPlane op names none

/-- The arguments give the padding of each side. -/
inductive SpellsPadding (op : Operator) : Padding → Prop
  | uniform {side : Nat} (hscalar : op.naturalArg? "pad" = .ok (some side)) :
      SpellsPadding op ⟨side, side, side, side⟩
  | listed {top left bottom right : Nat} (hscalar : op.naturalArg? "pad" = .ok none)
      (hlist : op.naturalsArg? "pads" = .ok (some [top, left, bottom, right])) :
      SpellsPadding op ⟨top, left, bottom, right⟩
  | sides {top left bottom right : Nat} (hscalar : op.naturalArg? "pad" = .ok none)
      (hlist : op.naturalsArg? "pads" = .ok none) (htop : op.naturalArg "pad_t" 0 = .ok top)
      (hleft : op.naturalArg "pad_l" 0 = .ok left)
      (hbottom : op.naturalArg "pad_b" 0 = .ok bottom)
      (hright : op.naturalArg "pad_r" 0 = .ok right) :
      SpellsPadding op ⟨top, left, bottom, right⟩

/-- The arguments give a window; its strides are one where they are not given. -/
structure SpellsWindow (op : Operator) (args : WindowArgs) : Prop where
  kernel : SpellsPlane op kernelNames args.kernel
  stride : ∃ stride?, SpellsPlane op strideNames stride? ∧ args.stride = stride?.getD (.square 1)
  padding : SpellsPadding op args.padding

theorem spellsPlane_of_planeArg? {names : PairNames} {plane? : Option Plane}
    (hread : planeArg? op names = .ok plane?) : SpellsPlane op names plane? := by
  simp only [planeArg?, bind_eq_ok_iff] at hread
  obtain ⟨scalar, hscalar, hread⟩ := hread
  cases scalar with
  | some side =>
      obtain rfl := pure_eq_ok_iff.mp hread
      exact .square hscalar
  | none =>
      obtain ⟨list, hlist, hread⟩ := bind_eq_ok_iff.mp hread
      split at hread
      · next height width =>
          obtain rfl := pure_eq_ok_iff.mp hread
          exact .listed hscalar hlist
      · cases hread
      · obtain ⟨vertical, hvertical, hread⟩ := bind_eq_ok_iff.mp hread
        obtain ⟨horizontal, hhorizontal, hread⟩ := bind_eq_ok_iff.mp hread
        split at hread
        · next height width =>
            obtain rfl := pure_eq_ok_iff.mp hread
            exact .sides hscalar hlist hvertical hhorizontal
        · obtain rfl := pure_eq_ok_iff.mp hread
          exact .absent hscalar hlist hvertical hhorizontal
        · cases hread

theorem spellsPadding_of_paddingArg {padding : Padding} (hread : paddingArg op = .ok padding) :
    SpellsPadding op padding := by
  simp only [paddingArg, bind_eq_ok_iff] at hread
  obtain ⟨scalar, hscalar, hread⟩ := hread
  cases scalar with
  | some side =>
      obtain rfl := pure_eq_ok_iff.mp hread
      exact .uniform hscalar
  | none =>
      obtain ⟨list, hlist, hread⟩ := bind_eq_ok_iff.mp hread
      split at hread
      · next top left bottom right =>
          obtain rfl := pure_eq_ok_iff.mp hread
          exact .listed hscalar hlist
      · cases hread
      · simp only [bind_eq_ok_iff, pure_eq_ok_iff] at hread
        obtain ⟨top, htop, left, hleft, bottom, hbottom, right, hright, rfl⟩ := hread
        exact .sides hscalar hlist htop hleft hbottom hright

theorem spellsWindow_of_windowArgs {args : WindowArgs} (hread : windowArgs op = .ok args) :
    SpellsWindow op args := by
  simp only [windowArgs, bind_eq_ok_iff, pure_eq_ok_iff] at hread
  obtain ⟨kernel, hkernel, stride, hstride, padding, hpadding, -, -, rfl⟩ := hread
  exact ⟨spellsPlane_of_planeArg? hkernel, ⟨stride, spellsPlane_of_planeArg? hstride, rfl⟩,
    spellsPadding_of_paddingArg hpadding⟩

end Lowering
end NetImport
