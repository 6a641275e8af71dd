import BlockCanvas.Number.Binary64

/-!
# The grid

Where a dragged block lands: on the grid point nearest to the corner of its preview, not left of or
above the canvas.
-/

namespace BlockCanvas
namespace Grid

/-- The distance between grid points. -/
def pitch : Binary64 := .ofNat 20

/-- How far the pointer is from the left and the top side of the preview. -/
def grab : Binary64 × Binary64 := (.ofNat 100, .ofNat 50)

/-- The multiple of the pitch nearest to a coordinate. -/
def snap (v : Binary64) : Binary64 := (v / pitch).round * pitch

/-- The coordinate on the canvas of a block under a pointer, before it is snapped. -/
def corner (pointer origin grab : Binary64) : Binary64 :=
  (pointer - origin - grab).max (.zero false)

/-- Where a block lands that is dropped at a pointer position, on a canvas with its origin at
`(originX, originY)`. -/
def drop (pointerX pointerY originX originY : Binary64) : Binary64 × Binary64 :=
  (snap (corner pointerX originX grab.1), snap (corner pointerY originY grab.2))

end Grid
end BlockCanvas
