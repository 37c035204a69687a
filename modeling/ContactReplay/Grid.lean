/-!
# Node grids

Nodes are shown in rows on a plane.  A `Grid` says how many stand in a row, how far apart they are
and where the first one is.  Coordinates are 32-bit integers; they wrap around at their limits.
-/

namespace ContactReplay

/-- A point of the plane. -/
structure Position where
  x : Int32
  y : Int32
  deriving DecidableEq, Repr, Inhabited

/-- How nodes are laid out in rows. -/
structure Grid where
  columns : UInt32 := 10
  spacing : Int32 := 50
  origin : Position := ⟨100, 100⟩
  deriving DecidableEq, Repr, Inhabited

namespace Grid

/-- The place of a slot, counted along the rows; the column and the row keep their low 32 bits. -/
def position (grid : Grid) (slot : UInt32) : Position where
  x := grid.origin.x + (slot % grid.columns).toInt32 * grid.spacing
  y := grid.origin.y + (slot / grid.columns).toInt32 * grid.spacing

/-- The place of a slot; there is none on a grid without columns. -/
def position? (grid : Grid) (slot : UInt32) : Option Position :=
  if grid.columns = 0 then none else some (grid.position slot)

end Grid

end ContactReplay
