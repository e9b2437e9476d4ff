/-!
# Shapes and row-major positions

A shape lists the extents of a tensor, outermost first.  Coordinates map to
positions through the row-major strides, and `advance` steps from one
coordinate list to the next in the same order, so that a walk of `count` steps
from the origin visits position after position.
-/

namespace NetImport

/-- The extents of a tensor, outermost first; a scalar has none. -/
structure Shape where
  dims : List Nat
deriving DecidableEq, Repr, Inhabited

def product (dims : List Nat) : Nat := dims.foldr (· * ·) 1

def total (terms : List Nat) : Nat := terms.foldr (· + ·) 0

def bracketed (parts : List String) : String :=
  "[" ++ ", ".intercalate parts ++ "]"

def strides : List Nat → List Nat
  | [] => []
  | _ :: dims => product dims :: strides dims

def offset (dims coords : List Nat) : Nat :=
  total (List.zipWith (· * ·) coords (strides dims))

/-- Every coordinate lies below its extent, and there is one for each. -/
def inBounds : List Nat → List Nat → Bool
  | [], [] => true
  | d :: dims, c :: coords => c < d && inBounds dims coords
  | _, _ => false

/-- The coordinate list of the first position. -/
def origin (dims : List Nat) : List Nat := dims.map fun _ => 0

/-- The next coordinate list in row-major order.  The flag is off when the walk
has wrapped around to the origin. -/
def advance : List Nat → List Nat → Bool × List Nat
  | d :: dims, c :: coords =>
      match advance dims coords with
      | (true, rest) => (true, c :: rest)
      | (false, rest) =>
          if c + 1 < d then (true, (c + 1) :: rest) else (false, 0 :: rest)
  | _, _ => (false, [])

/-- The coordinate lists of `steps` consecutive positions. -/
def walk (dims : List Nat) : Nat → List Nat → List (List Nat)
  | 0, _ => []
  | steps + 1, coords => coords :: walk dims steps (advance dims coords).2

@[simp] theorem length_walk (dims : List Nat) (steps : Nat) (coords : List Nat) :
    (walk dims steps coords).length = steps := by
  induction steps generalizing coords with
  | zero => rfl
  | succ steps ih => simp [walk, ih]

namespace Shape

def scalar : Shape := ⟨[]⟩
def vector (length : Nat) : Shape := ⟨[length]⟩
def matrix (rows columns : Nat) : Shape := ⟨[rows, columns]⟩

def rank (shape : Shape) : Nat := shape.dims.length

def count (shape : Shape) : Nat := product shape.dims

def dim? (shape : Shape) (axis : Nat) : Option Nat := shape.dims[axis]?

def text (shape : Shape) : String := bracketed (shape.dims.map toString)

def flatIndex? (shape : Shape) (coords : List Nat) : Option Nat :=
  if inBounds shape.dims coords then some (offset shape.dims coords) else none

/-- All coordinate lists, in row-major order. -/
def coordinates (shape : Shape) : List (List Nat) :=
  walk shape.dims shape.count (origin shape.dims)

@[simp] theorem length_coordinates (shape : Shape) :
    shape.coordinates.length = shape.count := length_walk ..

/-- The shape with a new axis, which may come after all others. -/
def insertAxis? (shape : Shape) (axis size : Nat) : Option Shape :=
  if axis ≤ shape.rank then some ⟨shape.dims.take axis ++ size :: shape.dims.drop axis⟩
  else none

/-- The result of multiplying a matrix of the first shape by one of the second. -/
def matrixProduct? : Shape → Shape → Option (Nat × Nat × Nat)
  | ⟨[m, k]⟩, ⟨[k', n]⟩ => if k = k' then some (m, k, n) else none
  | _, _ => none

end Shape
end NetImport
