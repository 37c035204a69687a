/-!
# Ordered tables

A `Table` maps keys to values and keeps its entries in strictly ascending order of their keys:

* no key stands twice, so a look-up has one answer;
* listing the entries gives them in the order in which every report of this library shows them;
* two tables with the same look-ups are the same table, so plain equality compares contents.

The order invariant is a field of the type.  `insert` and `erase` carry the proof that they keep it,
and the laws at the end say what a look-up sees after each of them.
-/

namespace ContactReplay

/-- A finite map whose entries are listed in strictly ascending order of their keys. -/
structure Table (κ ν : Type) [Ord κ] where
  entries : List (κ × ν)
  /-- Every key is smaller than all keys after it. -/
  ascending : entries.Pairwise fun earlier later => compare earlier.1 later.1 = .lt

namespace Table

variable {κ ν : Type} [Ord κ]

instance [DecidableEq κ] [DecidableEq ν] : DecidableEq (Table κ ν) := fun left right =>
  decidable_of_iff (left.entries = right.entries) (by
    cases left
    cases right
    simp)

instance [Repr κ] [Repr ν] : Repr (Table κ ν) := ⟨fun table => reprPrec table.entries⟩

def empty : Table κ ν := ⟨[], .nil⟩

instance : EmptyCollection (Table κ ν) := ⟨empty⟩

instance : Inhabited (Table κ ν) := ⟨empty⟩

/-! ## Looking up -/

def lookup (key : κ) : List (κ × ν) → Option ν
  | [] => none
  | (candidate, value) :: rest =>
      if compare key candidate = .eq then some value else lookup key rest

def get? (table : Table κ ν) (key : κ) : Option ν := lookup key table.entries

def contains (table : Table κ ν) (key : κ) : Bool := (table.get? key).isSome

def keys (table : Table κ ν) : List κ := table.entries.map (·.1)

def values (table : Table κ ν) : List ν := table.entries.map (·.2)

def size (table : Table κ ν) : Nat := table.entries.length

def isEmpty (table : Table κ ν) : Bool := table.entries.isEmpty

/-! ## Writing -/

/-- Put an entry at its place in an ascending list, over the entry that has its key. -/
def place (key : κ) (value : ν) : List (κ × ν) → List (κ × ν)
  | [] => [(key, value)]
  | (candidate, held) :: rest =>
      match compare key candidate with
      | .lt => (key, value) :: (candidate, held) :: rest
      | .eq => (key, value) :: rest
      | .gt => (candidate, held) :: place key value rest

theorem mem_place {key : κ} {value : ν} {entries : List (κ × ν)} {entry : κ × ν}
    (member : entry ∈ place key value entries) : entry = (key, value) ∨ entry ∈ entries := by
  induction entries with
  | nil => exact Or.inl (List.mem_singleton.mp member)
  | cons head rest inductionHypothesis =>
      obtain ⟨candidate, held⟩ := head
      simp only [place] at member
      split at member
      · exact List.mem_cons.mp member
      · rcases List.mem_cons.mp member with found | later
        · exact Or.inl found
        · exact Or.inr (List.mem_cons_of_mem _ later)
      · rcases List.mem_cons.mp member with found | later
        · exact Or.inr (found ▸ List.mem_cons_self)
        · rcases inductionHypothesis later with placed | kept
          · exact Or.inl placed
          · exact Or.inr (List.mem_cons_of_mem _ kept)

theorem place_ascending [Std.TransOrd κ] [Std.LawfulEqOrd κ] (key : κ) (value : ν)
    {entries : List (κ × ν)}
    (ascending : entries.Pairwise fun earlier later => compare earlier.1 later.1 = .lt) :
    (place key value entries).Pairwise fun earlier later =>
      compare earlier.1 later.1 = .lt := by
  induction entries with
  | nil => exact List.pairwise_singleton _ _
  | cons head rest inductionHypothesis =>
      obtain ⟨candidate, held⟩ := head
      obtain ⟨below, restAscending⟩ := List.pairwise_cons.mp ascending
      simp only [place]
      split
      · rename_i smaller
        refine List.pairwise_cons.mpr ⟨fun entry member => ?_, ascending⟩
        rcases List.mem_cons.mp member with rfl | later
        · exact smaller
        · exact Std.TransCmp.lt_trans smaller (below entry later)
      · rename_i same
        have equal : key = candidate := Std.LawfulEqOrd.eq_of_compare same
        exact List.pairwise_cons.mpr ⟨fun entry member => equal ▸ below entry member, restAscending⟩
      · rename_i larger
        refine List.pairwise_cons.mpr
          ⟨fun entry member => ?_, inductionHypothesis restAscending⟩
        rcases mem_place member with rfl | later
        · exact Std.OrientedCmp.lt_of_gt larger
        · exact below entry later

/-- Store a value under a key, over the one that may be there. -/
def insert [Std.TransOrd κ] [Std.LawfulEqOrd κ] (table : Table κ ν) (key : κ) (value : ν) :
    Table κ ν :=
  ⟨place key value table.entries, place_ascending key value table.ascending⟩

def erase (table : Table κ ν) (key : κ) : Table κ ν :=
  ⟨table.entries.filter fun entry => compare key entry.1 != .eq, table.ascending.filter _⟩

/-- Store the entries of a list one after the other, later ones over earlier ones. -/
def insertAll [Std.TransOrd κ] [Std.LawfulEqOrd κ] (table : Table κ ν) (entries : List (κ × ν)) :
    Table κ ν :=
  entries.foldl (fun grown entry => grown.insert entry.1 entry.2) table

/-- The table of a list of entries; of two with one key the later one stays. -/
def ofList [Std.TransOrd κ] [Std.LawfulEqOrd κ] (entries : List (κ × ν)) : Table κ ν :=
  empty.insertAll entries

/-- The table with the same keys and the images of the values. -/
def mapValues {μ : Type} (image : ν → μ) (table : Table κ ν) : Table κ μ :=
  ⟨table.entries.map fun entry => (entry.1, image entry.2), List.pairwise_map.mpr table.ascending⟩

/-! ## Laws -/

theorem lookup_place [Std.TransOrd κ] [Std.LawfulEqOrd κ] (key asked : κ) (value : ν)
    (entries : List (κ × ν)) :
    lookup asked (place key value entries) =
      if compare asked key = .eq then some value else lookup asked entries := by
  induction entries with
  | nil => rfl
  | cons head rest inductionHypothesis =>
      obtain ⟨candidate, held⟩ := head
      simp only [place]
      split
      · rfl
      · rename_i same
        have equal : key = candidate := Std.LawfulEqOrd.eq_of_compare same
        subst equal
        simp only [lookup]
        split <;> rfl
      · rename_i larger
        simp only [lookup]
        rw [inductionHypothesis]
        by_cases found : compare asked candidate = .eq
        · have equal : asked = candidate := Std.LawfulEqOrd.eq_of_compare found
          subst equal
          have other : compare asked key = .lt := Std.OrientedCmp.lt_of_gt larger
          simp [other]
        · simp [found]

@[simp]
theorem get?_empty (asked : κ) : (empty : Table κ ν).get? asked = none := rfl

/-- A look-up after a write sees the written value at the written key and nothing new elsewhere. -/
theorem get?_insert [Std.TransOrd κ] [Std.LawfulEqOrd κ] (table : Table κ ν) (key asked : κ)
    (value : ν) :
    (table.insert key value).get? asked =
      if compare asked key = .eq then some value else table.get? asked :=
  lookup_place key asked value table.entries

@[simp]
theorem get?_insert_self [Std.TransOrd κ] [Std.LawfulEqOrd κ] (table : Table κ ν) (key : κ)
    (value : ν) : (table.insert key value).get? key = some value := by
  rw [get?_insert, if_pos Std.ReflCmp.compare_self]

theorem get?_insert_of_ne [Std.TransOrd κ] [Std.LawfulEqOrd κ] (table : Table κ ν)
    {key asked : κ} (value : ν) (different : asked ≠ key) :
    (table.insert key value).get? asked = table.get? asked := by
  rw [get?_insert, if_neg fun same => different (Std.LawfulEqOrd.eq_of_compare same)]

theorem lookup_filter [Std.TransOrd κ] [Std.LawfulEqOrd κ] (key asked : κ)
    (entries : List (κ × ν)) :
    lookup asked (entries.filter fun entry => compare key entry.1 != .eq) =
      if compare asked key = .eq then none else lookup asked entries := by
  induction entries with
  | nil => simp [lookup]
  | cons head rest inductionHypothesis =>
      obtain ⟨candidate, held⟩ := head
      by_cases dropped : compare key candidate = .eq
      · have equal : key = candidate := Std.LawfulEqOrd.eq_of_compare dropped
        subst equal
        simp only [List.filter_cons, dropped, bne_self_eq_false, Bool.false_eq_true, if_false,
          inductionHypothesis, lookup]
        split <;> rfl
      · have kept : (compare key candidate != .eq) = true := by simp [dropped]
        simp only [List.filter_cons, kept, if_true, lookup, inductionHypothesis]
        by_cases found : compare asked candidate = .eq
        · have equal : asked = candidate := Std.LawfulEqOrd.eq_of_compare found
          subst equal
          have other : ¬ compare asked key = .eq := fun same =>
            dropped (Std.LawfulEqOrd.eq_of_compare same ▸ Std.ReflCmp.compare_self)
          simp [other]
        · simp [found]

/-- A look-up after taking an entry out finds nothing at its key and all else unchanged. -/
theorem get?_erase [Std.TransOrd κ] [Std.LawfulEqOrd κ] (table : Table κ ν) (key asked : κ) :
    (table.erase key).get? asked =
      if compare asked key = .eq then none else table.get? asked :=
  lookup_filter key asked table.entries

@[simp]
theorem get?_erase_self [Std.TransOrd κ] [Std.LawfulEqOrd κ] (table : Table κ ν) (key : κ) :
    (table.erase key).get? key = none := by
  rw [get?_erase, if_pos Std.ReflCmp.compare_self]

theorem get?_erase_of_ne [Std.TransOrd κ] [Std.LawfulEqOrd κ] (table : Table κ ν)
    {key asked : κ} (different : asked ≠ key) :
    (table.erase key).get? asked = table.get? asked := by
  rw [get?_erase, if_neg fun same => different (Std.LawfulEqOrd.eq_of_compare same)]

theorem lookup_eq_some_iff [Std.TransOrd κ] [Std.LawfulEqOrd κ] {entries : List (κ × ν)}
    (ascending : entries.Pairwise fun earlier later => compare earlier.1 later.1 = .lt)
    (key : κ) (value : ν) : lookup key entries = some value ↔ (key, value) ∈ entries := by
  induction entries with
  | nil => simp [lookup]
  | cons head rest inductionHypothesis =>
      obtain ⟨candidate, held⟩ := head
      obtain ⟨below, restAscending⟩ := List.pairwise_cons.mp ascending
      simp only [lookup, List.mem_cons, Prod.mk.injEq]
      split
      · rename_i same
        have equal : key = candidate := Std.LawfulEqOrd.eq_of_compare same
        subst equal
        have absent : (key, value) ∉ rest := fun member => by
          have smaller := below _ member
          simp [Std.ReflCmp.compare_self] at smaller
        simp [absent, eq_comm]
      · rename_i other
        have different : key ≠ candidate := fun equal =>
          other (equal ▸ Std.ReflCmp.compare_self)
        simp [different, inductionHypothesis restAscending]

/-- A table holds an entry exactly when a look-up of its key finds its value. -/
theorem get?_eq_some_iff [Std.TransOrd κ] [Std.LawfulEqOrd κ] {table : Table κ ν} {key : κ}
    {value : ν} : table.get? key = some value ↔ (key, value) ∈ table.entries :=
  lookup_eq_some_iff table.ascending key value

theorem mem_keys_iff [Std.TransOrd κ] [Std.LawfulEqOrd κ] {table : Table κ ν} {key : κ} :
    key ∈ table.keys ↔ ∃ value, table.get? key = some value := by
  simp [keys, get?_eq_some_iff]

theorem mem_keys_insert [Std.TransOrd κ] [Std.LawfulEqOrd κ] (table : Table κ ν)
    (key asked : κ) (value : ν) :
    asked ∈ (table.insert key value).keys ↔ asked = key ∨ asked ∈ table.keys := by
  rw [mem_keys_iff, mem_keys_iff]
  by_cases same : asked = key
  · subst same
    simp
  · simp [get?_insert_of_ne table value same, same]

theorem contains_iff_mem_keys [Std.TransOrd κ] [Std.LawfulEqOrd κ] {table : Table κ ν} {key : κ} :
    table.contains key = true ↔ key ∈ table.keys := by
  rw [contains, Option.isSome_iff_exists, mem_keys_iff]

theorem contains_insert [Std.TransOrd κ] [Std.LawfulEqOrd κ] {table : Table κ ν}
    {key asked : κ} {value : ν} :
    (table.insert key value).contains asked = true ↔ asked = key ∨ table.contains asked = true := by
  rw [contains_iff_mem_keys, contains_iff_mem_keys, mem_keys_insert]

theorem length_place [Std.TransOrd κ] [Std.LawfulEqOrd κ] {key : κ} (value : ν)
    {entries : List (κ × ν)} (absent : lookup key entries = none) :
    (place key value entries).length = entries.length + 1 := by
  induction entries with
  | nil => rfl
  | cons head rest inductionHypothesis =>
      obtain ⟨candidate, held⟩ := head
      simp only [lookup] at absent
      split at absent
      · cases absent
      · rename_i other
        simp only [place]
        split
        · rfl
        · contradiction
        · rw [List.length_cons, List.length_cons, inductionHypothesis absent]

theorem size_insert_of_absent [Std.TransOrd κ] [Std.LawfulEqOrd κ] {table : Table κ ν} {key : κ}
    (value : ν) (absent : table.get? key = none) :
    (table.insert key value).size = table.size + 1 :=
  length_place value absent

theorem keys_ascending (table : Table κ ν) :
    table.keys.Pairwise fun earlier later => compare earlier later = .lt :=
  List.pairwise_map.mpr table.ascending

theorem keys_nodup [Std.TransOrd κ] (table : Table κ ν) : table.keys.Nodup :=
  table.keys_ascending.imp fun {earlier later} smaller equal => by
    subst equal
    simp [Std.ReflCmp.compare_self] at smaller

/-- The entries of a table are known from its look-ups. -/
theorem entries_eq_of_ascending [Std.TransOrd κ] [Std.LawfulEqOrd κ] {table : Table κ ν}
    {entries : List (κ × ν)}
    (ascending : entries.Pairwise fun earlier later => compare earlier.1 later.1 = .lt)
    (same : ∀ key value, table.get? key = some value ↔ (key, value) ∈ entries) :
    table.entries = entries := by
  have distinct : ∀ {listed : List (κ × ν)},
      (listed.Pairwise fun earlier later => compare earlier.1 later.1 = .lt) → listed.Nodup :=
    fun sorted => sorted.imp fun {earlier later} smaller equal => by
      subst equal
      simp [Std.ReflCmp.compare_self] at smaller
  have members : table.entries.Perm entries :=
    (List.perm_ext_iff_of_nodup (distinct table.ascending) (distinct ascending)).mpr
      fun entry => get?_eq_some_iff.symm.trans (same entry.1 entry.2)
  refine members.eq_of_pairwise (fun earlier later _ _ smaller larger => ?_) table.ascending
    ascending
  rw [Std.OrientedCmp.gt_of_lt smaller] at larger
  cases larger

/-- Tables with the same look-ups are the same. -/
theorem ext_get? [Std.TransOrd κ] [Std.LawfulEqOrd κ] {table other : Table κ ν}
    (same : ∀ key, table.get? key = other.get? key) : table = other := by
  have sameEntries : table.entries = other.entries :=
    entries_eq_of_ascending other.ascending fun key value => by
      rw [same]
      exact get?_eq_some_iff
  cases table
  cases other
  cases sameEntries
  rfl

/-- Storing what is there already changes nothing. -/
theorem insert_eq_self [Std.TransOrd κ] [Std.LawfulEqOrd κ] {table : Table κ ν} {key : κ}
    {value : ν} (present : table.get? key = some value) : table.insert key value = table := by
  apply ext_get?
  intro asked
  by_cases same : asked = key
  · rw [same, get?_insert_self, present]
  · rw [get?_insert_of_ne table value same]

theorem insert_insert [Std.TransOrd κ] [Std.LawfulEqOrd κ] (table : Table κ ν) (key : κ)
    (first second : ν) :
    (table.insert key first).insert key second = table.insert key second := by
  apply ext_get?
  intro asked
  simp only [get?_insert]
  split <;> rfl

/-- Two keys with one value may be stored in either order. -/
theorem insert_comm [Std.TransOrd κ] [Std.LawfulEqOrd κ] (table : Table κ ν) (first second : κ)
    (value : ν) :
    (table.insert first value).insert second value =
      (table.insert second value).insert first value := by
  apply ext_get?
  intro asked
  simp only [get?_insert]
  split <;> split <;> rfl

theorem lookup_map {μ : Type} (image : ν → μ) (asked : κ) (entries : List (κ × ν)) :
    lookup asked (entries.map fun entry => (entry.1, image entry.2)) =
      (lookup asked entries).map image := by
  induction entries with
  | nil => rfl
  | cons head rest inductionHypothesis =>
      obtain ⟨candidate, held⟩ := head
      simp only [List.map_cons, lookup, inductionHypothesis]
      split <;> rfl

/-- A look-up in the table of the images sees the image of the value. -/
@[simp]
theorem get?_mapValues {μ : Type} (image : ν → μ) (table : Table κ ν) (asked : κ) :
    (table.mapValues image).get? asked = (table.get? asked).map image :=
  lookup_map image asked table.entries

theorem mapValues_insert [Std.TransOrd κ] [Std.LawfulEqOrd κ] {μ : Type} (image : ν → μ)
    (table : Table κ ν) (key : κ) (value : ν) :
    (table.insert key value).mapValues image =
      (table.mapValues image).insert key (image value) := by
  apply ext_get?
  intro asked
  simp only [get?_mapValues, get?_insert]
  split <;> rfl

end Table

end ContactReplay
