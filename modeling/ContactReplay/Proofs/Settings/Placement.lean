import ContactReplay.Settings.Basic

/-!
# Places on a grid

A grid computes with integers of 32 bits: it takes the column or the row of a slot for a signed
number, multiplies it by the spacing and adds the origin.  `Lossless` says of one coordinate that
nothing is lost on the way, and `PlacesExactly` that a slot gets the place that the layout gives it
over the whole numbers.

The check of the settings only asks for a column.  `HasRoom` is what one coordinate needs besides
(`lossless_iff_hasRoom`).  There is room for a column or row if there is room for a later one
(`HasRoom.of_le`), so the last column and the last row decide about all slots
(`forall_placesExactly_iff`).
-/

namespace ContactReplay

/-- The whole numbers that are integers of 32 bits. -/
def FitsInt32 (value : Int) : Prop :=
  Int32.minValue.toInt ≤ value ∧ value ≤ Int32.maxValue.toInt

instance (value : Int) : Decidable (FitsInt32 value) :=
  inferInstanceAs (Decidable (Int32.minValue.toInt ≤ value ∧ value ≤ Int32.maxValue.toInt))

/-! ## Arithmetic with 32 bits -/

theorem fitsInt32_iff (value : Int) :
    FitsInt32 value ↔ -2147483648 ≤ value ∧ value ≤ 2147483647 := Iff.rfl

theorem bmod_eq_self_iff_fitsInt32 (value : Int) :
    value.bmod Int32.size = value ↔ FitsInt32 value := by
  rw [fitsInt32_iff]
  constructor
  · intro same
    rw [← same]
    exact ⟨Int.le_bmod (by decide), Int.le_of_lt_add_one (Int.bmod_lt (by decide))⟩
  · rintro ⟨lower, upper⟩
    exact Int.bmod_eq_of_le lower (Int.lt_add_one_of_le upper)

theorem toInt_toInt32_eq_iff (index : UInt32) :
    index.toInt32.toInt = index.toNat ↔ FitsInt32 index.toNat := by
  have taken : index.toInt32.toInt = (index.toNat : Int).bmod Int32.size :=
    BitVec.toInt_eq_toNat_bmod index.toBitVec
  rw [taken, bmod_eq_self_iff_fitsInt32]

theorem toInt_mul_eq_iff (left right : Int32) :
    (left * right).toInt = left.toInt * right.toInt ↔ FitsInt32 (left.toInt * right.toInt) := by
  rw [Int32.toInt_mul]
  exact bmod_eq_self_iff_fitsInt32 _

theorem toInt_add_eq_iff (left right : Int32) :
    (left + right).toInt = left.toInt + right.toInt ↔ FitsInt32 (left.toInt + right.toInt) := by
  rw [Int32.toInt_add]
  exact bmod_eq_self_iff_fitsInt32 _

namespace Grid

/-! ## One coordinate -/

/-- Nothing is lost on the way to the coordinate of a column or row. -/
structure Lossless (origin spacing : Int32) (index : UInt32) : Prop where
  taken : index.toInt32.toInt = index.toNat
  multiplied : (index.toInt32 * spacing).toInt = index.toInt32.toInt * spacing.toInt
  added : (origin + index.toInt32 * spacing).toInt =
    origin.toInt + (index.toInt32 * spacing).toInt

/-- There are integers of 32 bits for a column or row, for its distance from the origin and for its
coordinate. -/
structure HasRoom (origin spacing : Int32) (index : Nat) : Prop where
  counted : FitsInt32 index
  distance : FitsInt32 (index * spacing.toInt)
  coordinate : FitsInt32 (origin.toInt + index * spacing.toInt)

instance (origin spacing : Int32) (index : Nat) : Decidable (HasRoom origin spacing index) :=
  decidable_of_iff (FitsInt32 index ∧ FitsInt32 (index * spacing.toInt) ∧
      FitsInt32 (origin.toInt + index * spacing.toInt))
    ⟨fun ⟨counted, distance, coordinate⟩ => ⟨counted, distance, coordinate⟩,
      fun room => ⟨room.counted, room.distance, room.coordinate⟩⟩

section Coordinate

variable {origin spacing : Int32} {index : UInt32}

theorem Lossless.toInt_coordinate (lossless : Lossless origin spacing index) :
    (origin + index.toInt32 * spacing).toInt = origin.toInt + index.toNat * spacing.toInt := by
  rw [lossless.added, lossless.multiplied, lossless.taken]

theorem lossless_iff_hasRoom :
    Lossless origin spacing index ↔ HasRoom origin spacing index.toNat := by
  constructor
  · intro lossless
    have distance := (toInt_mul_eq_iff _ _).mp lossless.multiplied
    have coordinate := (toInt_add_eq_iff _ _).mp lossless.added
    rw [lossless.multiplied] at coordinate
    rw [lossless.taken] at distance coordinate
    exact ⟨(toInt_toInt32_eq_iff index).mp lossless.taken, distance, coordinate⟩
  · intro room
    have taken := (toInt_toInt32_eq_iff index).mpr room.counted
    have multiplied : (index.toInt32 * spacing).toInt = index.toInt32.toInt * spacing.toInt := by
      rw [toInt_mul_eq_iff, taken]
      exact room.distance
    refine ⟨taken, multiplied, ?_⟩
    rw [toInt_add_eq_iff, multiplied, taken]
    exact room.coordinate

/-- A column or row is between the origin and every later one. -/
theorem mul_between {earlier later : Nat} (order : earlier ≤ later) (spacing : Int) :
    min 0 (later * spacing) ≤ earlier * spacing ∧ earlier * spacing ≤ max 0 (later * spacing) := by
  have cast : (earlier : Int) ≤ later := Int.ofNat_le.mpr order
  have natural : (0 : Int) ≤ earlier := Int.natCast_nonneg earlier
  rcases Int.le_total 0 spacing with forwards | backwards
  · have further := Int.mul_le_mul_of_nonneg_right cast forwards
    have onward := Int.mul_nonneg natural forwards
    omega
  · have further := Int.mul_le_mul_of_nonpos_right cast backwards
    have onward := Int.mul_nonpos_of_nonneg_of_nonpos natural backwards
    omega

theorem HasRoom.of_le {earlier later : Nat} (room : HasRoom origin spacing later)
    (order : earlier ≤ later) : HasRoom origin spacing earlier := by
  obtain ⟨lower, upper⟩ := mul_between order spacing.toInt
  have start : FitsInt32 origin.toInt := ⟨origin.minValue_le_toInt, origin.toInt_le⟩
  obtain ⟨counted, distance, coordinate⟩ := room
  rw [fitsInt32_iff] at start counted distance coordinate
  constructor
  case counted =>
    rw [fitsInt32_iff]
    omega
  case distance =>
    rw [fitsInt32_iff]
    omega
  case coordinate =>
    rw [fitsInt32_iff]
    omega

/-- The last row of the default grid that there is room for. -/
example : HasRoom 100 50 42949670 ∧ ¬ HasRoom 100 50 42949671 := by decide

end Coordinate

/-! ## The place of a slot -/

/-- A slot gets the place that the layout gives it over the whole numbers, and nothing is lost on
the way there. -/
structure PlacesExactly (grid : Grid) (slot : UInt32) : Prop where
  exact : ∃ place, grid.position? slot = some place ∧
    place.x.toInt = grid.origin.x.toInt +
      (slot.toNat % grid.columns.toNat : Nat) * grid.spacing.toInt ∧
    place.y.toInt = grid.origin.y.toInt +
      (slot.toNat / grid.columns.toNat : Nat) * grid.spacing.toInt
  column : Lossless grid.origin.x grid.spacing (slot % grid.columns)
  row : Lossless grid.origin.y grid.spacing (slot / grid.columns)

variable {grid : Grid}

theorem placesExactly_iff_hasRoom (wide : grid.columns ≠ 0) (slot : UInt32) :
    grid.PlacesExactly slot ↔
      HasRoom grid.origin.x grid.spacing (slot.toNat % grid.columns.toNat) ∧
      HasRoom grid.origin.y grid.spacing (slot.toNat / grid.columns.toNat) := by
  rw [← UInt32.toNat_mod, ← UInt32.toNat_div, ← lossless_iff_hasRoom, ← lossless_iff_hasRoom]
  constructor
  · exact fun places => ⟨places.column, places.row⟩
  · rintro ⟨column, row⟩
    refine ⟨⟨grid.position slot, if_neg wide, ?_, ?_⟩, column, row⟩
    · rw [← UInt32.toNat_mod]
      exact column.toInt_coordinate
    · rw [← UInt32.toNat_div]
      exact row.toInt_coordinate

/-- The last column and the last row decide about all slots. -/
theorem forall_placesExactly_iff (wide : grid.columns ≠ 0) :
    (∀ slot, grid.PlacesExactly slot) ↔
      HasRoom grid.origin.x grid.spacing (grid.columns.toNat - 1) ∧
      HasRoom grid.origin.y grid.spacing ((UInt32.size - 1) / grid.columns.toNat) := by
  have positive : 0 < grid.columns.toNat :=
    Nat.pos_of_ne_zero fun zero => wide (UInt32.toNat_inj.mp zero)
  have bound : grid.columns.toNat < UInt32.size := grid.columns.toNat_lt_size
  simp only [placesExactly_iff_hasRoom wide]
  constructor
  · intro everywhere
    -- The last column ends the first row, and the last of all slots is in the last row.
    have lastColumn := (everywhere (.ofNat (grid.columns.toNat - 1))).1
    have lastRow := (everywhere (.ofNat (UInt32.size - 1))).2
    rw [UInt32.toNat_ofNat_of_lt' (by omega)] at lastColumn lastRow
    rw [Nat.mod_eq_of_lt (by omega)] at lastColumn
    exact ⟨lastColumn, lastRow⟩
  · rintro ⟨lastColumn, lastRow⟩ slot
    refine ⟨lastColumn.of_le ?_, lastRow.of_le ?_⟩
    · exact Nat.le_sub_one_of_lt (Nat.mod_lt _ positive)
    · exact Nat.div_le_div_right (Nat.le_sub_one_of_lt slot.toNat_lt_size)

end Grid

namespace Settings

open Grid

/-- The check of the settings makes sure of a place for every slot, but not of room for it: a slot
is placed exactly if there is room for its column and its row, and all slots are if there is room
for the last column and the last row of the grid. -/
theorem placesExactly_iff {settings : Settings} (accepted : settings.check = .ok ()) :
    (∀ slot, settings.grid.PlacesExactly slot ↔
      HasRoom settings.grid.origin.x settings.grid.spacing
        (slot.toNat % settings.grid.columns.toNat) ∧
      HasRoom settings.grid.origin.y settings.grid.spacing
        (slot.toNat / settings.grid.columns.toNat)) ∧
    ((∀ slot, settings.grid.PlacesExactly slot) ↔
      HasRoom settings.grid.origin.x settings.grid.spacing (settings.grid.columns.toNat - 1) ∧
      HasRoom settings.grid.origin.y settings.grid.spacing
        ((UInt32.size - 1) / settings.grid.columns.toNat)) := by
  have wide : settings.grid.columns ≠ 0 := by
    intro zero
    rw [check, if_pos zero] at accepted
    cases accepted
  exact ⟨Grid.placesExactly_iff_hasRoom wide, Grid.forall_placesExactly_iff wide⟩

/-- A square grid whose last column and row are as far out as an integer of 32 bits goes. -/
theorem placesExactly_iff_outermost :
    let settings : Settings := { grid := ⟨65536, 32767, ⟨98302, 98302⟩⟩ }
    settings.check = .ok () ∧ ∀ slot, settings.grid.PlacesExactly slot := by
  intro settings
  have accepted : settings.check = .ok () := rfl
  exact ⟨accepted, (placesExactly_iff accepted).2.mpr ⟨by decide, by decide⟩⟩

/-- In a single column, row 2^31 comes out above the origin. -/
theorem exists_not_placesExactly :
    let settings : Settings := { grid := ⟨1, 1, ⟨0, 0⟩⟩ }
    settings.check = .ok () ∧ ¬ settings.grid.PlacesExactly 2147483648 := by
  intro settings
  refine ⟨rfl, fun places => ?_⟩
  obtain ⟨place, found, -, y⟩ := places.exact
  obtain rfl : settings.grid.position 2147483648 = place := Option.some.inj found
  revert y
  decide

end Settings

end ContactReplay
