import ContactReplay.Registry

/-!
# Bindings of a registry

A registry keeps two tables, from names to identifiers and back.  Names and identifiers may be
offered to it in any order, also such as are bound already.

* `Bound` says that the tables are inverse to each other, and `Holds` also which bindings they have.
  An offer adds a binding or leaves the registry as it is (`offer_of_ok`, `offer_of_error`).
* So after any offers a registry holds the bindings of those that were accepted (`Holds.after`).
  `OneToOne` says what a registry promises then.
-/

namespace ContactReplay.Registry

variable {registry next : Registry} {name : String} {id : NodeId}
  {bindings : List (String × NodeId)}

/-! ## Single insertions -/

theorem insert_of_free (unbound : registry.id? name = none) (free : registry.name? id = none) :
    registry.insert name id =
      .ok ⟨registry.byName.insert name id, registry.byId.insert id name⟩ := by
  rw [insert, unbound, free]

theorem insert_of_bound {other : NodeId} (id : NodeId) (bound : registry.id? name = some other) :
    registry.insert name id = .error (.invariant (.nodeDeclaredTwice name)) := by
  rw [insert, bound]

/-- A binding is inserted exactly if both its name and its identifier are free, into both tables. -/
theorem insert_eq_ok_iff :
    registry.insert name id = .ok next ↔ registry.id? name = none ∧ registry.name? id = none ∧
      next = ⟨registry.byName.insert name id, registry.byId.insert id name⟩ := by
  constructor
  · intro inserted
    rw [insert] at inserted
    split at inserted
    · cases inserted
    · cases inserted
    · rename_i unbound free
      exact ⟨unbound, free, (Except.ok.inj inserted).symm⟩
  · rintro ⟨unbound, free, rfl⟩
    exact insert_of_free unbound free

/-- Names and identifiers are bound to each other. -/
def Bound (registry : Registry) : Prop :=
  ∀ name id, registry.id? name = some id ↔ registry.name? id = some name

theorem Bound.insert (bound : registry.Bound) (inserted : registry.insert name id = .ok next) :
    next.Bound := by
  obtain ⟨unbound, free, rfl⟩ := insert_eq_ok_iff.mp inserted
  intro asked number
  have old := bound asked number
  simp only [id?, name?] at unbound free old ⊢
  by_cases sameName : asked = name
  · subst sameName
    by_cases sameId : number = id
    · simp [sameId]
    · rw [Table.get?_insert_self, Table.get?_insert_of_ne _ _ sameId, ← old, unbound]
      simp [Ne.symm sameId]
  · by_cases sameId : number = id
    · subst sameId
      rw [Table.get?_insert_self, Table.get?_insert_of_ne _ _ sameName, old, free]
      simp [Ne.symm sameName]
    · rw [Table.get?_insert_of_ne _ _ sameName, Table.get?_insert_of_ne _ _ sameId, old]

/-! ## Offers -/

/-- Enter a binding into the registry at hand: check the name, check the identifier, then write into
one table and after that into the other. -/
def enter (name : String) (id : NodeId) : ExceptT Error (StateM Registry) Unit := do
  if (← get).byName.contains name then
    throw (.invariant (.nodeDeclaredTwice name))
  if let some holder := (← get).byId.get? id then
    throw (.invariant (.idInUse id holder))
  modify fun registry => { registry with byName := registry.byName.insert name id }
  modify fun registry => { registry with byId := registry.byId.insert id name }

/-- What comes of a binding that is entered, and the registry that is at hand afterwards. -/
def offer (registry : Registry) (name : String) (id : NodeId) : Except Error Unit × Registry :=
  (enter name id).run.run registry

/-- A registry after some offers, whatever came of them. -/
def after (registry : Registry) : List (String × NodeId) → Registry
  | [] => registry
  | (name, id) :: rest => (registry.offer name id).2.after rest

/-- The offers that are accepted. -/
def accepted (registry : Registry) : List (String × NodeId) → List (String × NodeId)
  | [] => []
  | (name, id) :: rest =>
      let (outcome, next) := registry.offer name id
      if outcome.isOk then (name, id) :: next.accepted rest else next.accepted rest

theorem run_get_bind {α : Type} (rest : Registry → ExceptT Error (StateM Registry) α) :
    (get >>= rest).run.run registry = (rest registry).run.run registry := rfl

/-- To enter a binding is to insert it, and a refused one has not been written into any table. -/
theorem offer_eq (registry : Registry) (name : String) (id : NodeId) :
    registry.offer name id =
      match registry.insert name id with
      | .ok next => (.ok (), next)
      | .error error => (.error error, registry) := by
  rw [offer, enter, run_get_bind, insert, id?, name?, Table.contains]
  cases registry.byName.get? name with
  | some other => rfl
  | none =>
      cases held : registry.byId.get? id with
      | some holder =>
          simp only [Option.isSome_none, Bool.false_eq_true, if_false, run_get_bind, held]
          rfl
      | none =>
          simp only [Option.isSome_none, Bool.false_eq_true, if_false, run_get_bind, held]
          rfl

theorem offer_of_ok (inserted : registry.insert name id = .ok next) :
    registry.offer name id = (.ok (), next) := by
  rw [offer_eq, inserted]

theorem offer_of_error {error : Error} (refused : registry.insert name id = .error error) :
    registry.offer name id = (.error error, registry) := by
  rw [offer_eq, refused]

/-! ## After any offers -/

/-- A registry has some bindings, each once, and no others. -/
structure Holds (registry : Registry) (bindings : List (String × NodeId)) : Prop where
  bound : registry.Bound
  held_iff : ∀ name id, registry.name? id = some name ↔ (name, id) ∈ bindings
  size : registry.size = bindings.length

theorem holds_empty : Holds {} [] where
  bound := fun _ _ => iff_of_false nofun nofun
  held_iff := fun _ _ => iff_of_false nofun nofun
  size := rfl

theorem Holds.insert (holds : registry.Holds bindings)
    (inserted : registry.insert name id = .ok next) : next.Holds (bindings ++ [(name, id)]) := by
  have bound := holds.bound.insert inserted
  obtain ⟨-, free, rfl⟩ := insert_eq_ok_iff.mp inserted
  refine ⟨bound, fun asked number => ?_, ?_⟩
  · rw [List.mem_append, List.mem_singleton, Prod.mk.injEq, name?]
    by_cases same : number = id
    · subst same
      have new : (asked, number) ∉ bindings := by
        rw [← holds.held_iff, free]
        exact nofun
      simp [new, eq_comm]
    · rw [Table.get?_insert_of_ne _ _ same, ← name?, holds.held_iff]
      simp [same]
  · rw [List.length_append, List.length_singleton, ← holds.size]
    exact Table.size_insert_of_absent name free

/-- Whatever is offered, the bindings of the accepted offers are added. -/
theorem Holds.after (holds : registry.Holds bindings) (offers : List (String × NodeId)) :
    (registry.after offers).Holds (bindings ++ registry.accepted offers) := by
  induction offers generalizing registry bindings with
  | nil => rwa [accepted, List.append_nil]
  | cons entry rest inductionHypothesis =>
      obtain ⟨name, id⟩ := entry
      rw [Registry.after, accepted]
      cases inserted : registry.insert name id with
      | ok next =>
          rw [offer_of_ok inserted]
          have later := inductionHypothesis (holds.insert inserted)
          rwa [List.append_assoc] at later
      | error error =>
          rw [offer_of_error inserted]
          exact inductionHypothesis holds

/-- A registry that binds names and identifiers one to one, answered for by what it says next. -/
structure OneToOne (registry : Registry) (bindings : List (String × NodeId)) : Prop where
  /-- A name has an identifier exactly if the identifier has the name. -/
  inverse : ∀ name id, registry.id? name = some id ↔ registry.name? id = some name
  /-- Exactly some names have identifiers. -/
  held_iff : ∀ name id, registry.name? id = some name ↔ (name, id) ∈ bindings
  /-- A binding is inserted exactly if neither its name nor its identifier is bound. -/
  inserted_iff : ∀ name id, (∃ next, registry.insert name id = .ok next) ↔
    registry.id? name = none ∧ registry.name? id = none
  /-- A refused binding leaves the registry at hand as it is. -/
  refused : ∀ name id error, registry.insert name id = .error error →
    registry.offer name id = (.error error, registry)
  /-- What is bound stays bound as it is, whatever is offered later. -/
  lasting : ∀ name id, registry.id? name = some id → ∀ later,
    (registry.after later).id? name = some id ∧ (registry.after later).name? id = some name
  size : registry.size = bindings.length
  listed : registry.ids.length = registry.size
  mem_ids_iff : ∀ id, id ∈ registry.ids ↔ ∃ name, registry.name? id = some name
  ascending : registry.ids.Pairwise (· < ·)

theorem Holds.oneToOne (holds : registry.Holds bindings) : registry.OneToOne bindings where
  inverse := holds.bound
  held_iff := holds.held_iff
  inserted_iff _ _ := by simp only [insert_eq_ok_iff, exists_and_left, exists_eq, and_true]
  refused _ _ _ := offer_of_error
  lasting name id bound later := by
    have laterHolds := holds.after later
    have kept : (registry.after later).name? id = some name :=
      (laterHolds.held_iff name id).mpr
        (List.mem_append_left _ ((holds.held_iff name id).mp ((holds.bound name id).mp bound)))
    exact ⟨(laterHolds.bound name id).mpr kept, kept⟩
  size := holds.size
  listed := List.length_map _
  mem_ids_iff id := Table.mem_keys_iff
  ascending := registry.byId.keys_ascending.imp Std.compare_eq_lt.mp

/-- Whatever has been offered to a new registry, names and identifiers are bound one to one, and
there are as many bindings as accepted offers. -/
theorem after_oneToOne (offers : List (String × NodeId)) :
    (after {} offers).OneToOne (accepted {} offers) :=
  (holds_empty.after offers).oneToOne

/-- A name that is bound, an identifier that is bound, and both. -/
example : let offers := [("a", 2), ("b", 1), ("a", 3), ("c", 1), ("a", 2), ("c", 3)]
    (after {} offers).ids = [1, 2, 3] ∧ accepted {} offers = [("a", 2), ("b", 1), ("c", 3)] := by
  decide +kernel

end ContactReplay.Registry
