import NetImport.Proofs.InPlace.Pooling
import NetImport.Proofs.Kernel.WindowWords

/-!
# Counting windows

The count of the stops bounds the loops of the pooling routine, which a padding smaller than
the kernel keeps from beginning a window behind the input.  In words this holds as long as the
padded extents are words, and twice the padded extents for the places of the windows.  Beyond
that a cut sum counts other stops, or none, and a padding that is taken for a negative number
puts windows behind the input.
-/

namespace NetImport
namespace InPlace

/-- Where the kernel succeeds, the routine meets no fault. -/
theorem pooling_eq_ok {pool : Pooling} {input output result : Tensor}
    (hdone : Kernel.pooling pool input output = .ok result) :
    pooling pool input output.storage = .ok () result.storage := by
  rcases pooling_endsAs pool input output with hends | ⟨hedge, -⟩
  · rw [hends, hdone, ending]
  · cases hdone.symm.trans hedge

/-- A window has stops exactly when its strides and its kernel have no zero and the kernel is
no longer than the padded extents, and the number of stops is the one that counts them exactly.
With a padding smaller than the kernel, every window over an image that is not empty meets a
row and a column of it, and pooling runs through.  In words the stops are those on what is left
of the padded extents; the two counts are the same where the padded extents are words, and
pooling is where twice the padded extents are. -/
theorem window_stops_are_counted (window : Window) (plane : Plane) (bits : Nat) :
    ((∃ out, window.output? plane = some out) ↔
      window.stride.height ≠ 0 ∧ window.stride.width ≠ 0 ∧
        window.kernel.height ≠ 0 ∧ window.kernel.width ≠ 0 ∧
        window.kernel.height ≤ plane.height + window.padding.top + window.padding.bottom ∧
        window.kernel.width ≤ plane.width + window.padding.left + window.padding.right) ∧
    (∀ out, window.output? plane = some out ↔ window.Fits plane ∧ window.Counts plane out) ∧
    (∀ out, window.output? plane = some out → window.NarrowlyPadded →
      0 < plane.height → 0 < plane.width →
        (∀ row < out.height, ∀ column < out.width, window.Meets plane row column) ∧
        ∀ (mode : PoolMode) (count channels : Nat) (input output : Tensor),
          input.type = ⟨.f32, ⟨[count, channels, plane.height, plane.width]⟩⟩ →
          output.type = ⟨.f32, ⟨[count, channels, out.height, out.width]⟩⟩ →
            ∃ result, Kernel.pooling ⟨mode, window⟩ input output = .ok result ∧
              pooling ⟨mode, window⟩ input output.storage = .ok () result.storage ∧
              (window.FitsWords bits plane →
                Kernel.poolingInWords bits ⟨mode, window⟩ input output = .ok result)) ∧
    window.outputInWords? bits plane =
      window.withoutPadding.output? (window.paddedInWords bits plane) ∧
    (plane.height + window.padding.top + window.padding.bottom < twoPow bits →
      plane.width + window.padding.left + window.padding.right < twoPow bits →
        window.outputInWords? bits plane = window.output? plane) := by
  refine ⟨Window.exists_output?_iff.trans Window.fits_iff,
    fun out => Window.output?_eq_some_iff_counts, ?_,
    Window.outputInWords?_eq_wrapped bits window plane, Window.outputInWords?_eq⟩
  intro out hout hnarrow hheight hwidth
  obtain ⟨hfits, hcounts⟩ := Window.output?_eq_some_iff_counts.mp hout
  refine ⟨fun row hrow column hcolumn =>
    hcounts.meets hnarrow hheight hwidth hrow hcolumn, ?_⟩
  intro mode count channels input output hinput houtput
  obtain ⟨-, rfl⟩ := Window.output?_eq_some_iff.mp hout
  obtain ⟨result, hdone⟩ := @Kernel.exists_pooling_of_narrowlyPadded ⟨mode, window⟩
    ⟨count, channels, plane.height, plane.width⟩ input output hinput hfits hnarrow houtput
  refine ⟨result, hdone, pooling_eq_ok hdone, fun hwords => ?_⟩
  rw [Kernel.poolingInWords_eq output]
  · exact hdone
  · rw [Pooling.FitsWords, show input.shape = _ from (TensorType.mk.inj hinput).2]
    exact hwords

/-- A window of three rows and two columns, with two rows of padding above the input, one
below it, and a column before it. -/
def tallWindow : Window := ⟨⟨3, 2⟩, ⟨2, 1⟩, ⟨2, 1, 1, 0⟩⟩

theorem tallWindow_stops_are_counted :
    tallWindow.output? ⟨4, 3⟩ = some ⟨3, 3⟩ ∧ tallWindow.NarrowlyPadded ∧
      tallWindow.outputInWords? 4 ⟨4, 3⟩ = some ⟨3, 3⟩ ∧
      tallWindow.Meets ⟨4, 3⟩ 0 0 ∧ tallWindow.Meets ⟨4, 3⟩ 2 2 ∧
      ∃ result, pooling ⟨.average, tallWindow⟩ (Tensor.zeros .f32 ⟨[1, 2, 4, 3]⟩)
        (Tensor.zeros .f32 ⟨[1, 2, 3, 3]⟩).storage = .ok () result ∧
        ∃ tensor, Kernel.poolingInWords 4 ⟨.average, tallWindow⟩
          (Tensor.zeros .f32 ⟨[1, 2, 4, 3]⟩) (Tensor.zeros .f32 ⟨[1, 2, 3, 3]⟩) = .ok tensor := by
  obtain ⟨-, -, hnarrow, -, hwords⟩ := window_stops_are_counted tallWindow ⟨4, 3⟩ 4
  have hout : tallWindow.output? ⟨4, 3⟩ = some ⟨3, 3⟩ := by decide
  have hpadded : tallWindow.NarrowlyPadded := ⟨by decide, by decide, by decide, by decide⟩
  obtain ⟨hmeets, hpools⟩ := hnarrow ⟨3, 3⟩ hout hpadded (by decide) (by decide)
  obtain ⟨result, -, hrun, hpooled⟩ := hpools .average 1 2 (Tensor.zeros .f32 ⟨[1, 2, 4, 3]⟩)
    (Tensor.zeros .f32 ⟨[1, 2, 3, 3]⟩) rfl rfl
  exact ⟨hout, hpadded, (hwords (by decide) (by decide)).trans hout,
    hmeets 0 (by decide) 0 (by decide), hmeets 2 (by decide) 2 (by decide), _, hrun, result,
    hpooled (by decide)⟩

/-- A padding of more than half of the words before the only column of the input. -/
def deepWindow : Window := ⟨⟨1, twoPow 63 + 101⟩, ⟨1, 1⟩, ⟨0, twoPow 63 + 100, 0, 0⟩⟩

/-- A single place with almost as many rows of padding as there are words. -/
def tallPlaneWindow : Window := ⟨⟨1, 1⟩, ⟨1, 1⟩, ⟨twoPow 63 - 1, 0, twoPow 63 - 1, 0⟩⟩

/-- In words of 64 bits, two rows with that padding have no stops at all, and the window with
the deep padding begins behind its input, though its padding is smaller than its kernel. -/
theorem wrapped_windows_are_lost :
    tallPlaneWindow.output? ⟨2, 2⟩ = some ⟨twoPow 64, 2⟩ ∧
      tallPlaneWindow.outputInWords? 64 ⟨2, 2⟩ = none ∧
      deepWindow.NarrowlyPadded ∧ deepWindow.output? ⟨1, 1⟩ = some ⟨1, 1⟩ ∧
      deepWindow.Meets ⟨1, 1⟩ 0 0 ∧
      Kernel.poolingInWords 64 ⟨.max, deepWindow⟩ (Tensor.zeros .f32 ⟨[1, 1, 1, 1]⟩)
        (Tensor.zeros .f32 ⟨[1, 1, 1, 1]⟩) = .error .windowPastEdge := by
  refine ⟨by decide, by decide, ⟨by decide, by decide, by decide, by decide⟩, by decide,
    ⟨by decide, by decide, ⟨0, by decide, 0, by decide, rfl⟩,
      ⟨twoPow 63 + 100, by decide, 0, by decide, by decide⟩⟩, rfl⟩

end InPlace
end NetImport
