/-!
# Shortest decimals

A binary fraction `m * 2^q` stands for all real numbers that are rounded to it.  Its shortest
decimal is the point of the coarsest decimal grid on which some point is rounded to it; of several
such points it is the one nearest to the fraction.

`Binary.rounds` is the interval of those real numbers, cut to one grid, in exact integer arithmetic,
and `Binary.shortest` takes the grids from the coarsest on.
-/

namespace ContactReplay

/-- The number `digits * 10^exponent`. -/
structure Decimal where
  digits : Nat
  exponent : Int
  deriving DecidableEq, Repr

/-- The number `mantissa * 2^exponent` among its neighbours of the same precision. -/
structure Binary where
  mantissa : Nat
  exponent : Int
  /-- Whether the next smaller neighbour is only half as far away as the next larger one. -/
  closeBelow : Bool
  deriving DecidableEq, Repr

namespace Binary

/-- A number on a grid: its distance from zero in units that the grid width `width` and the bounds
of the rounding interval share. -/
structure OnGrid where
  width : Nat
  lowest : Nat
  value : Nat
  highest : Nat
  deriving DecidableEq, Repr

/-- The fraction and its rounding interval in units in which the grid `10^grid` is whole. -/
def onGrid (binary : Binary) (grid : Int) : OnGrid :=
  let unit := Nat.pow 2 (binary.exponent - 2).toNat * Nat.pow 10 (-grid).toNat
  { width := Nat.pow 10 grid.toNat * Nat.pow 2 (2 - binary.exponent).toNat
    lowest := (4 * binary.mantissa - (if binary.closeBelow then 1 else 2)) * unit
    value := 4 * binary.mantissa * unit
    highest := (4 * binary.mantissa + 2) * unit }

/-- Whether a grid point is rounded to the fraction; a point half-way goes to the even mantissa. -/
def rounds (binary : Binary) (place : OnGrid) (point : Nat) : Bool :=
  let distance := point * place.width
  if binary.mantissa % 2 = 0 then place.lowest ≤ distance && distance ≤ place.highest
  else place.lowest < distance && distance < place.highest

/-- The grid point nearest to the fraction among the two around it that are rounded to it; of two
equally near ones the even one. -/
def nearest? (binary : Binary) (grid : Int) : Option Nat :=
  let place := binary.onGrid grid
  let below := place.value / place.width
  let remainder := place.value % place.width
  match binary.rounds place below, binary.rounds place (below + 1) with
  | true, true =>
      let downward := 2 * remainder < place.width ∨ (2 * remainder = place.width ∧ below % 2 = 0)
      some (if downward then below else below + 1)
  | true, false => some below
  | false, true => some (below + 1)
  | false, false => none

/-- The decimal with the fewest digits that is rounded to the fraction, searched on `count` grids
from the grid `coarsest` on. -/
def shortest (binary : Binary) (coarsest : Int) (count : Nat) : Option Decimal :=
  (List.range count).findSome? fun (step : Nat) =>
    let grid := coarsest - step
    (binary.nearest? grid).map fun digits => ⟨digits, grid⟩

end Binary

end ContactReplay
