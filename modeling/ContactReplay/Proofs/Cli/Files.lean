import ContactReplay.Cli.Disk

/-!
# Writing files

A path that has a place for its file (`Disk.Reserves`) leads to that place as soon as the file is
there, because making a file takes nothing away (`Disk.Extends`).  So a text that is written to a
path is all that its file holds afterwards, unless a device stands there (`Disk.Reserves.write`), and
nothing else changes (`Disk.entry?_write`).
-/

namespace ContactReplay.Cli

namespace Disk

variable {disk later : Disk} {path text : String} {place around : Place} {name : String}

/-! ## Finding places again -/

/-- The file of a path is or can be made at a place. -/
def Reserves (disk : Disk) (path : String) (place : Place) : Prop :=
  Path.read path >>= disk.reserve = .ok place

/-- Everything that stands on a disk still stands on a later one, directories as directories. -/
structure Extends (later disk : Disk) : Prop where
  current : later.current = disk.current
  directories : ∀ place, disk.entry? place = some .directory →
    later.entry? place = some .directory
  kept : ∀ place, (disk.entry? place).isSome = true → (later.entry? place).isSome = true

theorem extends_refl (disk : Disk) : disk.Extends disk :=
  ⟨rfl, fun _ => id, fun _ => id⟩

theorem enter_ok_iff {result : Place} :
    disk.enter place name = .ok result ↔ disk.entry? place = some .directory ∧
      ((name = "." ∧ result = place) ∨ (name = ".." ∧ result = place.dropLast) ∨
        (Path.isDots name = false ∧ Path.isTooLong name = false ∧
          (disk.entry? (place ++ [name])).isSome = true ∧ result = place ++ [name])) := by
  rw [enter]
  by_cases directory : disk.entry? place = some .directory
  · rw [if_neg (absurd directory)]
    by_cases dot : name = "."
    · simp [directory, dot, Path.isDots, @eq_comm _ place]
    · by_cases dots : name = ".."
      · simp [directory, dots, Path.isDots, @eq_comm _ place.dropLast]
      · cases tooLong : Path.isTooLong name <;> cases stands : disk.entry? (place ++ [name]) <;>
          simp [directory, dot, dots, Path.isDots, @eq_comm _ (place ++ [name])]
  · simp [directory]

theorem enter_dot_ok_iff {result : Place} :
    disk.enter place "." = .ok result ↔ disk.entry? place = some .directory ∧ result = place := by
  rw [enter_ok_iff]
  simp [Path.isDots]

theorem Extends.enter (extension : later.Extends disk) {result : Place}
    (entered : disk.enter place name = .ok result) : later.enter place name = .ok result := by
  rw [enter_ok_iff] at entered ⊢
  obtain ⟨directory, ways⟩ := entered
  refine ⟨extension.directories _ directory, ?_⟩
  rcases ways with dot | dots | ⟨plain, short, stands, same⟩
  · exact Or.inl dot
  · exact Or.inr (Or.inl dots)
  · exact Or.inr (Or.inr ⟨plain, short, extension.kept _ stands, same⟩)

theorem Extends.foldlM_enter (extension : later.Extends disk) {names : List String}
    {start result : Place} (followed : names.foldlM disk.enter start = .ok result) :
    names.foldlM later.enter start = .ok result := by
  induction names generalizing start with
  | nil => exact followed
  | cons name rest inductionHypothesis =>
      rw [List.foldlM_cons] at followed ⊢
      obtain ⟨next, entered, goesOn⟩ := bind_eq_ok_iff.mp followed
      exact bind_eq_ok_iff.mpr ⟨next, extension.enter entered, inductionHypothesis goesOn⟩

theorem Extends.follow (extension : later.Extends disk) {way : Path} {names : List String}
    {result : Place} (followed : disk.follow way names = .ok result) :
    later.follow way names = .ok result := by
  rw [Disk.follow, extension.current]
  exact extension.foldlM_enter followed

/-- A place is reserved in a directory, for a file that may be there already. -/
theorem exists_of_reserve {way : Path} (reserved : disk.reserve way = .ok place) :
    ∃ around name, way.names = way.names.dropLast ++ [name] ∧
      disk.follow way way.names.dropLast = .ok around ∧ disk.entry? around = some .directory ∧
      Path.isDots name = false ∧ way.endsInSlash = false ∧ Path.isTooLong name = false ∧
      place = around ++ [name] ∧ disk.entry? place ≠ some .directory := by
  rw [reserve] at reserved
  split at reserved
  · rename_i name last
    obtain ⟨around, followed, onwards⟩ := bind_eq_ok_iff.mp reserved
    obtain ⟨same, entered, checked⟩ := bind_eq_ok_iff.mp onwards
    obtain ⟨directory, rfl⟩ := enter_dot_ok_iff.mp entered
    dsimp only at checked
    split at checked
    · cases checked
    · rename_i plain
      split at checked
      · cases checked
      · rename_i short
        split at checked
        · cases checked
        · rename_i free
          obtain rfl := Except.ok.inj checked
          rw [Bool.or_eq_true, not_or, Bool.not_eq_true, Bool.not_eq_true] at plain
          obtain ⟨before, names⟩ := List.getLast?_eq_some_iff.mp last
          refine ⟨_, name, ?_, followed, directory, plain.1, plain.2, Bool.eq_false_iff.mpr short,
            rfl, free⟩
          rw [names, List.dropLast_concat]
  · cases reserved

/-- A path leads to its reserved place once something stands there. -/
theorem Reserves.locate (reserves : disk.Reserves path place) (extension : later.Extends disk)
    (stands : (later.entry? place).isSome = true) : Path.read path >>= later.locate = .ok place := by
  obtain ⟨way, read, reserved⟩ := bind_eq_ok_iff.mp reserves
  obtain ⟨around, name, names, followed, directory, plain, unslashed, short, rfl, -⟩ :=
    exists_of_reserve reserved
  have entered : later.enter around name = .ok (around ++ [name]) :=
    enter_ok_iff.mpr ⟨extension.directories _ directory,
      Or.inr (Or.inr ⟨plain, short, stands, rfl⟩)⟩
  have arrived : later.follow way way.names = .ok (around ++ [name]) := by
    have before := extension.follow followed
    rw [follow] at before ⊢
    rw [names, List.foldlM_append, before]
    change List.foldlM later.enter around [name] = _
    rw [List.foldlM_cons, entered]
    rfl
  rw [read]
  change later.locate way = _
  rw [Disk.locate, arrived]
  change (if way.endsInSlash then _ else _) = _
  rw [unslashed]
  rfl

/-! ## What writing leaves -/

/-- A disk on which a file at a place holds some bytes. -/
def put (disk : Disk) (place : Place) (bytes : List UInt8) : Disk :=
  { disk with entries := disk.entries.insert place (.file bytes) }

theorem put_put (disk : Disk) (place : Place) (earlier bytes : List UInt8) :
    (disk.put place earlier).put place bytes = disk.put place bytes := by
  rw [put, put, Table.insert_insert, put]

theorem entry?_put_self (disk : Disk) (place : Place) (bytes : List UInt8) :
    Disk.entry? (disk.put place bytes) place = some (.file bytes) := by
  rw [Disk.entry?, put, Table.get?_insert_self]

theorem isPrefixOf_append_singleton {other : Place} (different : other ≠ around ++ [name]) :
    other.isPrefixOf (around ++ [name]) = other.isPrefixOf around := by
  rw [Bool.eq_iff_iff, List.isPrefixOf_iff_prefix, List.isPrefixOf_iff_prefix,
    List.prefix_concat_iff]
  exact or_iff_right different

theorem below_of_directory (directory : disk.entry? around = some .directory) {other : Place}
    (above : other <+: around) :
    (other.isEmpty || disk.entries.keys.any other.isPrefixOf) = true := by
  have isKeyOrAbove : around.isEmpty = true ∨ disk.entries.keys.any around.isPrefixOf = true := by
    rw [Disk.entry?] at directory
    split at directory
    · rename_i held
      exact Or.inr (List.any_eq_true.mpr ⟨around, Table.mem_keys_iff.mpr ⟨_, held⟩,
        List.isPrefixOf_iff_prefix.mpr (List.prefix_refl around)⟩)
    · split at directory
      · rename_i known
        exact Bool.or_eq_true_iff.mp known
      · cases directory
  rw [Bool.or_eq_true]
  rcases isKeyOrAbove with root | known
  · rw [List.isEmpty_iff] at root
    exact Or.inl (List.isEmpty_iff.mpr (List.prefix_nil.mp (root ▸ above)))
  · obtain ⟨key, member, keyBelow⟩ := List.any_eq_true.mp known
    exact Or.inr (List.any_eq_true.mpr ⟨key, member, List.isPrefixOf_iff_prefix.mpr
      (above.trans (List.isPrefixOf_iff_prefix.mp keyBelow))⟩)

/-- A file that is made in a directory changes nothing at any other place. -/
theorem entry?_put_of_ne (directory : disk.entry? around = some .directory) {other : Place}
    (different : other ≠ around ++ [name]) (bytes : List UInt8) :
    Disk.entry? (disk.put (around ++ [name]) bytes) other = disk.entry? other := by
  have placed : (disk.put (around ++ [name]) bytes).entries.get? other =
      disk.entries.get? other := Table.get?_insert_of_ne _ _ different
  have below : (disk.put (around ++ [name]) bytes).entries.keys.any other.isPrefixOf = true ↔
      other.isPrefixOf around = true ∨ disk.entries.keys.any other.isPrefixOf = true := by
    simp only [List.any_eq_true, put, Table.mem_keys_insert, or_and_right, exists_or,
      exists_eq_left, isPrefixOf_append_singleton different]
  rw [Disk.entry?, Disk.entry?, placed]
  cases disk.entries.get? other with
  | some entry => rfl
  | none =>
      dsimp only
      have same : (other.isEmpty ||
          (disk.put (around ++ [name]) bytes).entries.keys.any other.isPrefixOf) =
          (other.isEmpty || disk.entries.keys.any other.isPrefixOf) := by
        rw [Bool.eq_iff_iff, Bool.or_eq_true, below]
        constructor
        · rintro (root | above | known)
          · exact Bool.or_eq_true_iff.mpr (Or.inl root)
          · exact below_of_directory directory (List.isPrefixOf_iff_prefix.mp above)
          · exact Bool.or_eq_true_iff.mpr (Or.inr known)
        · intro known
          rcases Bool.or_eq_true_iff.mp known with root | before
          · exact Or.inl root
          · exact Or.inr (Or.inr before)
      rw [same]

theorem Reserves.extends_put (reserves : disk.Reserves path place) (bytes : List UInt8) :
    (disk.put place bytes).Extends disk := by
  obtain ⟨way, -, reserved⟩ := bind_eq_ok_iff.mp reserves
  obtain ⟨around, name, -, -, directory, -, -, -, rfl, free⟩ := exists_of_reserve reserved
  refine ⟨rfl, fun other held => ?_, fun other stands => ?_⟩
  · have different : other ≠ around ++ [name] := fun same => free (same ▸ held)
    rw [entry?_put_of_ne directory different, held]
  · by_cases same : other = around ++ [name]
    · rw [same, entry?_put_self]
      rfl
    · rw [entry?_put_of_ne directory same]
      exact stands

theorem Reserves.entry?_put_of_ne (reserves : disk.Reserves path place) {other : Place}
    (different : other ≠ place) (bytes : List UInt8) :
    Disk.entry? (disk.put place bytes) other = disk.entry? other := by
  obtain ⟨way, -, reserved⟩ := bind_eq_ok_iff.mp reserves
  obtain ⟨around, name, -, -, directory, -, -, -, rfl, -⟩ := exists_of_reserve reserved
  exact Disk.entry?_put_of_ne directory different bytes

/-- Storing the bytes that a file has already changes nothing. -/
theorem put_eq_self {bytes : List UInt8} (held : disk.entry? place = some (.file bytes)) :
    disk.put place bytes = disk := by
  have stored : disk.entries.get? place = some (.file bytes) := by
    rw [Disk.entry?] at held
    split at held
    · rename_i entry stored
      rw [stored, held]
    · split at held <;> cases held
  rw [put, Table.insert_eq_self stored]

/-! ## Writing to a path -/

theorem Reserves.createFile (reserves : disk.Reserves path place)
    (plain : ∀ device, disk.entry? place ≠ some (.device device)) :
    disk.createFile path = (.ok (), disk.put place []) := by
  rw [Disk.createFile, reserves]
  dsimp only
  split
  · rename_i device held
    exact absurd held (plain device)
  · rfl

theorem Reserves.appendText (reserves : disk.Reserves path place) (bytes : List UInt8)
    (text : String) :
    (disk.put place bytes).appendText path text =
      (.ok (), disk.put place (bytes ++ utf8 text)) := by
  have stands : (Disk.entry? (disk.put place bytes) place).isSome = true := by
    rw [entry?_put_self]
    rfl
  rw [Disk.appendText, reserves.locate (reserves.extends_put bytes) stands]
  dsimp only
  rw [appendPlace, entry?_put_self]
  exact Prod.ext rfl (disk.put_put place bytes (bytes ++ utf8 text))

theorem Reserves.createFile_of_device (reserves : disk.Reserves path place) {device : Device}
    (held : disk.entry? place = some (.device device)) : disk.createFile path = (.ok (), disk) := by
  rw [Disk.createFile, reserves]
  dsimp only
  rw [held]

theorem Reserves.appendText_of_device (reserves : disk.Reserves path place) {device : Device}
    (held : disk.entry? place = some (.device device)) (text : String) :
    disk.appendText path text = disk.appendPlace place text := by
  have stands : (disk.entry? place).isSome = true := by
    rw [held]
    rfl
  rw [Disk.appendText, reserves.locate disk.extends_refl stands]

theorem createFile_of_error {cause : DeviceError}
    (unplaced : Path.read path >>= disk.reserve = .error cause) :
    disk.createFile path = (.error cause, disk) := by
  rw [createFile, unplaced]

/-- A path has no place, or the place of a file, or that of a device. -/
theorem reserve_cases (disk : Disk) (path : String) :
    (∃ cause, Path.read path >>= disk.reserve = .error cause) ∨
    (∃ place, disk.Reserves path place ∧ ∀ device, disk.entry? place ≠ some (.device device)) ∨
    ∃ place device, disk.Reserves path place ∧ disk.entry? place = some (.device device) := by
  cases reserved : Path.read path >>= disk.reserve with
  | error cause => exact Or.inl ⟨cause, rfl⟩
  | ok place =>
      by_cases onDevice : ∃ device, disk.entry? place = some (.device device)
      · obtain ⟨device, held⟩ := onDevice
        exact Or.inr (Or.inr ⟨place, device, reserved, held⟩)
      · exact Or.inr (Or.inl ⟨place, reserved, fun device held => onDevice ⟨device, held⟩⟩)

/-- A device keeps no files, and only the output shows what it gets. -/
theorem appendPlace_of_device {device : Device} (held : disk.entry? place = some (.device device))
    (text : String) : (disk.appendPlace place text).2 =
      { disk with output := if device = .output then disk.output ++ text else disk.output } := by
  rw [appendPlace, held]
  cases device <;> rfl

/-- Make the file of a path and write a text to it. -/
def write (disk : Disk) (path text : String) : Except DeviceError Unit × Disk :=
  match disk.createFile path with
  | (.error cause, next) => (.error cause, next)
  | (.ok _, made) => made.appendText path text

theorem write_of_error {cause : DeviceError}
    (unplaced : Path.read path >>= disk.reserve = .error cause) (text : String) :
    disk.write path text = (.error cause, disk) := by
  rw [write, createFile_of_error unplaced]

/-- A text that is written to a file is all that the file holds. -/
theorem Reserves.write (reserves : disk.Reserves path place)
    (plain : ∀ device, disk.entry? place ≠ some (.device device)) (text : String) :
    disk.write path text = (.ok (), disk.put place (utf8 text)) := by
  rw [Disk.write, reserves.createFile plain]
  exact reserves.appendText [] text

theorem Reserves.write_of_device (reserves : disk.Reserves path place) {device : Device}
    (held : disk.entry? place = some (.device device)) (text : String) :
    disk.write path text = disk.appendPlace place text := by
  rw [Disk.write, reserves.createFile_of_device held]
  exact reserves.appendText_of_device held text

/-- Writing shows nothing but on the output. -/
theorem exists_write (disk : Disk) (path text : String) :
    ∃ entries output, (disk.write path text).2 = { disk with entries, output } := by
  rcases disk.reserve_cases path with
    ⟨cause, unplaced⟩ | ⟨place, reserves, plain⟩ | ⟨place, device, reserves, held⟩
  · exact ⟨disk.entries, disk.output, by rw [write_of_error unplaced]⟩
  · exact ⟨_, disk.output, by rw [reserves.write plain]; rfl⟩
  · exact ⟨disk.entries, _, by rw [reserves.write_of_device held, appendPlace_of_device held]⟩

/-- Writing to a path changes nothing but what stands at its place. -/
theorem entry?_write (disk : Disk) (path text : String) (unasked : ¬disk.Reserves path place) :
    Disk.entry? (disk.write path text).2 place = disk.entry? place := by
  rcases disk.reserve_cases path with
    ⟨cause, unplaced⟩ | ⟨reserved, reserves, plain⟩ | ⟨reserved, device, reserves, held⟩
  · rw [write_of_error unplaced]
  · have different : place ≠ reserved := fun same => unasked (same ▸ reserves)
    rw [reserves.write plain, reserves.entry?_put_of_ne different]
  · rw [reserves.write_of_device held, appendPlace_of_device held]
    rfl

theorem outcome_appendPlace_of_device {device : Device}
    (held : disk.entry? place = some (.device device)) (text : String) :
    (disk.appendPlace place text).1 =
      if device = .full ∧ text ≠ "" then .error .noRoom else .ok () := by
  rw [appendPlace, held]
  cases device with
  | full => by_cases empty : text = "" <;> simp [empty]
  | null => rfl
  | input => rfl
  | output => rfl
  | reports => rfl

/-- Whether a text can be written does not depend on what has been read and shown before. -/
theorem outcome_write (disk : Disk) (path text input : String) (prompts : List Prompt) :
    (write { disk with input, prompts } path text).1 = (disk.write path text).1 := by
  rcases disk.reserve_cases path with
    ⟨cause, unplaced⟩ | ⟨place, reserves, plain⟩ | ⟨place, device, reserves, held⟩
  · have alsoUnplaced :
        Path.read path >>= reserve { disk with input, prompts } = .error cause := unplaced
    rw [write_of_error unplaced, write_of_error alsoUnplaced]
  · have alsoReserves : Reserves { disk with input, prompts } path place := reserves
    rw [reserves.write plain, alsoReserves.write plain]
  · have alsoReserves : Reserves { disk with input, prompts } path place := reserves
    have alsoHeld : entry? { disk with input, prompts } place = some (.device device) := held
    rw [reserves.write_of_device held, alsoReserves.write_of_device alsoHeld,
      outcome_appendPlace_of_device held, outcome_appendPlace_of_device alsoHeld]

/-! ## Reading -/

theorem exists_readPlace (disk : Disk) (place : Place) :
    ∃ outcome input, disk.readPlace place = (outcome, { disk with input }) := by
  rw [readPlace]
  split
  · exact ⟨_, disk.input, rfl⟩
  · exact ⟨_, disk.input, rfl⟩
  · exact ⟨_, disk.input, rfl⟩
  · exact ⟨_, "", rfl⟩
  · exact ⟨_, disk.input, rfl⟩
  · exact ⟨_, disk.input, rfl⟩

/-- Reading uses up the input at most. -/
theorem exists_readText (disk : Disk) (path : String) :
    ∃ outcome input, disk.readText path = (outcome, { disk with input }) := by
  rw [readText]
  split
  · exact ⟨_, disk.input, rfl⟩
  · rename_i place located
    obtain ⟨outcome, input, read⟩ := disk.exists_readPlace place
    rw [read]
    exact ⟨outcome >>= decode, input, rfl⟩

/-! ## Disks that are as they were -/

/-- The output and everything that stands on a disk are as they were. -/
structure Spared (disk after : Disk) : Prop where
  output : after.output = disk.output
  entries : ∀ place, after.entry? place = disk.entry? place

theorem spared_of_input {after : Disk} (input : String) :
    Spared { disk with input } after ↔ disk.Spared after :=
  ⟨fun spared => ⟨spared.output, spared.entries⟩, fun spared => ⟨spared.output, spared.entries⟩⟩

theorem spared_report {after : Disk} (errors : List Error) :
    disk.Spared { after with errors } ↔ disk.Spared after :=
  ⟨fun spared => ⟨spared.output, spared.entries⟩, fun spared => ⟨spared.output, spared.entries⟩⟩

end Disk

end ContactReplay.Cli
