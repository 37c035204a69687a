import ContactReplay.Proofs.Replay.Running

/-!
# What successful courses keep

`Course.Ensures` says what holds after a course if it ends without an error, and `Course.Keeps` that
it keeps an invariant then.  Unlike `Course.Decides` they ask nothing of the surroundings: a request
may be refused, made to fail or come after a cancellation.

`Conductor.Laid` is what preparations leave behind: a session whose links are all down, no open
edge, and names and identifiers that are bound to each other.
-/

namespace ContactReplay

namespace Course

variable {α β : Type} {course : Course α} {stand next : Stand} {after : α → Stand → Prop}
  {invariant : Stand → Prop}

/-- If a course ends without an error, its value and the stand after it are as described. -/
def Ensures (course : Course α) (stand : Stand) (after : α → Stand → Prop) : Prop :=
  ∀ value next, course.perform stand = (.ok value, next) → after value next

/-- A course that ends without an error keeps an invariant. -/
def Keeps (invariant : Stand → Prop) (course : Course α) : Prop :=
  ∀ stand, invariant stand → course.Ensures stand fun _ => invariant

/-! ## Single outcomes -/

theorem ensures_of_ok {value : α} (performed : course.perform stand = (.ok value, next))
    (described : after value next) : course.Ensures stand after := by
  intro other last same
  rw [performed] at same
  obtain ⟨sameValue, rfl⟩ := Prod.mk.inj same
  obtain rfl := Except.ok.inj sameValue
  exact described

theorem ensures_of_error {error : Error} (performed : course.perform stand = (.error error, next)) :
    course.Ensures stand after := by
  intro value last same
  rw [performed] at same
  cases (Prod.mk.inj same).1

/-- A course and what follows it end without an error if both do. -/
theorem perform_bind_eq_ok_iff {rest : α → Course β} {value : β} :
    (course >>= rest).perform stand = (.ok value, next) ↔
      ∃ result middle, course.perform stand = (.ok result, middle) ∧
        (rest result).perform middle = (.ok value, next) := by
  rw [perform_bind]
  rcases course.perform stand with ⟨outcome, middle⟩
  cases outcome with
  | ok result =>
      constructor
      · exact fun continued => ⟨result, middle, rfl, continued⟩
      · rintro ⟨_, _, ⟨⟩, continued⟩
        exact continued
  | error error =>
      constructor
      · nofun
      · rintro ⟨_, _, ⟨⟩, _⟩

theorem ensures_bind {rest : α → Course β} {ending : β → Stand → Prop}
    (first : course.Ensures stand after)
    (second : ∀ value next, after value next → (rest value).Ensures next ending) :
    (course >>= rest).Ensures stand ending := by
  intro value last performed
  obtain ⟨result, middle, begun, continued⟩ := perform_bind_eq_ok_iff.mp performed
  exact second result middle (first result middle begun) value last continued

theorem ensures_bind_of_ok {rest : α → Course β} {ending : β → Stand → Prop} {value : α}
    (performed : course.perform stand = (.ok value, next))
    (second : (rest value).Ensures next ending) : (course >>= rest).Ensures stand ending := by
  intro result last continued
  rw [perform_bind_ok performed] at continued
  exact second result last continued

theorem ensures_bind_of_error {rest : α → Course β} {ending : β → Stand → Prop} {error : Error}
    (performed : course.perform stand = (.error error, next)) :
    (course >>= rest).Ensures stand ending :=
  ensures_of_error (perform_bind_error performed rest)

/-! ## Invariants -/

theorem keeps_pure (value : α) : Keeps invariant (pure value) :=
  fun stand holds => ensures_of_ok (perform_pure stand value) holds

theorem keeps_get : Keeps invariant get :=
  fun stand holds => ensures_of_ok (perform_get stand) holds

theorem keeps_attempt (outcome : Except Error α) : Keeps invariant (attempt outcome) := by
  intro stand holds
  cases outcome with
  | ok value => exact ensures_of_ok (perform_attempt stand _) holds
  | error error => exact ensures_of_error (perform_attempt stand _)

theorem keeps_modify {change : Conductor → Conductor}
    (kept : ∀ stand, invariant stand →
      invariant { stand with conductor := change stand.conductor }) :
    Keeps invariant (modify change) :=
  fun stand holds => ensures_of_ok (perform_modify stand change) (kept stand holds)

theorem keeps_modifyGet {change : Conductor → α × Conductor}
    (kept : ∀ stand, invariant stand →
      invariant { stand with conductor := (change stand.conductor).2 }) :
    Keeps invariant (modifyGet change) :=
  fun stand holds => ensures_of_ok (perform_modifyGet stand change) (kept stand holds)

theorem keeps_bind {rest : α → Course β} (first : Keeps invariant course)
    (second : ∀ value, Keeps invariant (rest value)) : Keeps invariant (course >>= rest) :=
  fun stand holds => ensures_bind (first stand holds) fun value next => second value next

theorem keeps_forM {items : List α} {body : α → Course Unit}
    (each : ∀ item, Keeps invariant (body item)) : Keeps invariant (items.forM body) := by
  induction items with
  | nil => exact keeps_pure ()
  | cons item rest inductionHypothesis => exact keeps_bind (each item) fun _ => inductionHypothesis

/-- A loop ensures an invariant of the items before, newest first, if each of its steps does. -/
theorem ensures_forM {items : List α} {body : α → Course Unit} {holds : List α → Stand → Prop}
    (step : ∀ past item stand, holds past stand →
      (body item).Ensures stand fun _ => holds (item :: past))
    {past : List α} (begins : holds past stand) :
    (items.forM body).Ensures stand fun _ => holds (items.reverse ++ past) := by
  induction items generalizing past stand with
  | nil => exact ensures_of_ok (perform_pure stand ()) begins
  | cons item rest inductionHypothesis =>
      rw [List.reverse_cons, List.append_assoc]
      exact ensures_bind (step past item stand begins) fun _ next nextHolds =>
        inductionHypothesis nextHolds

/-! ## Questions -/

/-- Two stands have the same conductor and the same testbed. -/
structure Alike (stand next : Stand) : Prop where
  conductor : next.conductor = stand.conductor
  testbed : next.rehearsal.testbed = stand.rehearsal.testbed

theorem ensures_pause (duration : Duration) :
    (pause duration).Ensures stand fun _ next => Alike stand next := by
  have performed : (pause duration).perform stand =
      (.ok (), ⟨stand.conductor, (stand.rehearsal.hear (.pause duration)).endPause⟩) := rfl
  exact ensures_of_ok performed ⟨rfl, rfl⟩

theorem ensures_stopIfCancelled (step : UInt64) :
    (stopIfCancelled step).Ensures stand fun _ next => Alike stand next := by
  have opened : (stopIfCancelled step).perform stand =
      (if stand.rehearsal.cancelled then .error (.cancelled step) else .ok (),
        ⟨stand.conductor, stand.rehearsal.hear .isCancelled⟩) := rfl
  intro value next performed
  rw [opened] at performed
  obtain ⟨_, rfl⟩ := Prod.mk.inj performed
  exact ⟨rfl, rfl⟩

theorem ensures_confirm (prompt : Prompt) :
    (confirm prompt).Ensures stand fun _ next => Alike stand next := by
  have opened : (confirm prompt).perform stand =
      ((stand.rehearsal.hear (.confirm prompt)).confirm.1, ⟨stand.conductor,
        (stand.rehearsal.hear (.confirm prompt)).confirm.2⟩) := rfl
  intro value next performed
  rw [opened, Rehearsal.confirm] at performed
  split at performed
  · cases (Prod.mk.inj performed).1
  · obtain ⟨_, rfl⟩ := Prod.mk.inj performed
    exact ⟨rfl, rfl⟩

/-- A request that is answered well has been served by the testbed. -/
theorem ensures_request (request : Request) :
    (Course.request request).Ensures stand fun reply next =>
      next.conductor = stand.conductor ∧
        stand.rehearsal.testbed.serve request = (.ok reply, next.rehearsal.testbed) := by
  have opened : (Course.request request).perform stand =
      (((stand.rehearsal.hear (.request request)).serve request).1, ⟨stand.conductor,
        ((stand.rehearsal.hear (.request request)).serve request).2⟩) := rfl
  intro reply next performed
  rw [opened, Rehearsal.serve] at performed
  dsimp only at performed
  split at performed
  · cases (Prod.mk.inj performed).1
  · obtain ⟨served, rfl⟩ := Prod.mk.inj performed
    exact ⟨rfl, Prod.ext served rfl⟩

/-- An order that is answered well has been carried out by its session and logged. -/
theorem ensures_order_served (id : SessionId) (order : Order) :
    (Course.order id order).Ensures stand fun reply next =>
      next.conductor = stand.conductor ∧ ∃ before later,
        stand.rehearsal.testbed.session? id = some before ∧
        before.carryOut stand.rehearsal.testbed.serviceFiles order = .ok (reply, later) ∧
        next.rehearsal.testbed = Stand.served stand.rehearsal.testbed id order later := by
  intro reply next performed
  obtain ⟨sameConductor, served⟩ := ensures_request (.order id order) reply next performed
  refine ⟨sameConductor, ?_⟩
  rcases Testbed.serve_order_cases stand.rehearsal.testbed id order with
    ⟨before, given, later, held, -, carried, accepted⟩ | ⟨cause, refused⟩
  · rw [accepted] at served
    obtain ⟨sameReply, sameTestbed⟩ := Prod.mk.inj served
    obtain rfl := Except.ok.inj sameReply
    exact ⟨before, later, held, carried, sameTestbed.symm⟩
  · rw [refused] at served
    cases (Prod.mk.inj served).1

theorem ensures_order (id : SessionId) (order : Order) :
    (Course.order id order).Ensures stand fun reply next =>
      next.conductor = stand.conductor ∧ ∃ before later,
        stand.rehearsal.testbed.session? id = some before ∧
        before.carryOut stand.rehearsal.testbed.serviceFiles order = .ok (reply, later) ∧
        next.rehearsal.testbed.session? id = some later := by
  intro reply next performed
  obtain ⟨sameConductor, before, later, held, carried, sameTestbed⟩ :=
    ensures_order_served id order reply next performed
  refine ⟨sameConductor, before, later, held, carried, ?_⟩
  rw [sameTestbed]
  exact Table.get?_insert_self _ _ _

end Course

/-! ## Registries -/

namespace Registry

theorem Bound.faithful {registry : Registry} (bound : registry.Bound) :
    registry.Faithful registry.byName.keys where
  known name := by
    rw [← Table.contains_iff_mem_keys, Table.contains, Option.isSome_iff_exists]
    rfl
  injective first second id firstBound secondBound := by
    rw [bound] at firstBound secondBound
    exact Option.some.inj (firstBound.symm.trans secondBound)

end Registry

namespace Conductor

open Course

/-! ## Sessions with idle links -/

/-- All links of a session are down. -/
def Idle (session : Session) : Prop :=
  ∀ pair link, session.links.get? pair = some link → link.loss = Loss.down

/-- An order that leaves an idle session idle. -/
def Idles : Order → Prop
  | .addLink link => link.loss = Loss.down
  | .adjustLink _ => False
  | _ => True

theorem Idle.carryOut {session later : Session} (idle : Idle session)
    {files : Table FileName String} {order : Order} (idles : Idles order) {reply : order.Reply}
    (carried : session.carryOut files order = .ok (reply, later)) : Idle later := by
  cases Session.carries_of_carryOut carried with
  | addLink link first second new =>
      intro pair made found
      by_cases same : pair = link.pair
      · subst same
        rw [Table.get?_insert_self] at found
        cases found
        exact idles
      · rw [Table.get?_insert_of_ne _ _ same] at found
        exact idle pair made found
  | adjustLink adjustment link held first second => exact idles.elim
  | setMode mode => exact idle
  | setOptions options => exact idle
  | addNode node new => exact idle
  | getFile node name found text held stored => exact idle
  | setFile node name text found held => exact idle
  | teardown => exact idle

/-! ## Preparations -/

/-- Preparations have come to a stand: the links of the session are down, no edge is open, and names
and identifiers are bound to each other. -/
structure Laid (id : SessionId) (stand : Stand) : Prop where
  bound : stand.conductor.registry.Bound
  closed : stand.conductor.openEdges = ∅
  idle : ∃ session, stand.rehearsal.testbed.session? id = some session ∧ Idle session

section Prepare

variable {id : SessionId} {stand next : Stand}

theorem Laid.alike (laid : Laid id stand) (alike : Alike stand next) : Laid id next where
  bound := alike.conductor ▸ laid.bound
  closed := alike.conductor ▸ laid.closed
  idle := alike.testbed ▸ laid.idle

/-- Everything but the registry and the open edges may change in a conductor. -/
theorem keeps_laid_modify {change : Conductor → Conductor}
    (registry : ∀ conductor, (change conductor).registry = conductor.registry)
    (openEdges : ∀ conductor, (change conductor).openEdges = conductor.openEdges) :
    Keeps (Laid id) (modify change) := by
  refine keeps_modify fun stand laid => ⟨?_, ?_, laid.idle⟩
  · rw [registry]
    exact laid.bound
  · rw [openEdges]
    exact laid.closed

theorem keeps_laid_order {order : Order} (idles : Idles order) :
    Keeps (Laid id) (Course.order id order) := by
  intro stand laid reply next performed
  obtain ⟨sameConductor, before, later, held, carried, heldLater⟩ :=
    ensures_order id order reply next performed
  obtain ⟨session, heldIdle, idle⟩ := laid.idle
  rw [held] at heldIdle
  obtain rfl := Option.some.inj heldIdle
  exact ⟨sameConductor ▸ laid.bound, sameConductor ▸ laid.closed,
    later, heldLater, idle.carryOut idles carried⟩

theorem ensures_openSession (bound : stand.conductor.registry.Bound)
    (closed : stand.conductor.openEdges = ∅) : openSession.Ensures stand Laid := by
  refine ensures_bind (ensures_request .createSession) fun id made ⟨sameConductor, served⟩ => ?_
  obtain ⟨sameId, sameTestbed⟩ := Prod.mk.inj served
  have held : made.rehearsal.testbed.session? id = some {} := by
    obtain rfl := Except.ok.inj sameId
    rw [← sameTestbed]
    exact Table.get?_insert_self _ _ _
  have laid : Laid id made := ⟨sameConductor ▸ bound, sameConductor ▸ closed, {}, held, nofun⟩
  have marks : Keeps (Laid id) (modify fun conductor => { conductor with session := some id }) :=
    keeps_laid_modify (fun _ => rfl) fun _ => rfl
  have configures : Keeps (Laid id) (Course.order id (.setMode .configuration)) :=
    keeps_laid_order trivial
  refine ensures_bind (marks made laid) fun _ marked laidMarked => ?_
  refine ensures_bind (configures marked laidMarked) fun _ current now => ?_
  refine ensures_bind (keeps_get current now) fun conductor last laidLast => ?_
  cases conductor.settings.controlNet with
  | none => exact ensures_of_ok (perform_pure last id) laidLast
  | some net =>
      have equips : Keeps (Laid id)
          (Course.order id (.setOptions (.ofList [("controlnet", net)]))) :=
        keeps_laid_order trivial
      refine ensures_bind (equips last laidLast) fun _ final laidFinal => ?_
      exact ensures_of_ok (perform_pure final id) laidFinal

theorem keeps_addControlNode : Keeps (Laid id) (addControlNode id) := by
  refine keeps_bind keeps_get fun conductor => ?_
  cases conductor.settings.controlNode with
  | none => exact keeps_pure ()
  | some node =>
      refine keeps_bind (keeps_modifyGet fun stand laid => ?_) fun _ => keeps_laid_order trivial
      exact ⟨laid.bound, laid.closed, laid.idle⟩

theorem keeps_register (name : String) (node : NodeId) : Keeps (Laid id) (register name node) := by
  intro stand laid
  rw [register]
  refine ensures_bind_of_ok (perform_get stand) ?_
  cases inserted : stand.conductor.registry.insert name node with
  | error error => exact ensures_bind_of_error (perform_attempt stand (.error error))
  | ok registry =>
      refine ensures_bind_of_ok (perform_attempt stand (.ok registry)) ?_
      exact ensures_of_ok (perform_modify stand _)
        ⟨laid.bound.insert inserted, laid.closed, laid.idle⟩

theorem keeps_addNode (name : String) : Keeps (Laid id) (addNode id name) := by
  refine keeps_bind (keeps_modifyGet fun stand laid => ?_) fun node => ?_
  · exact ⟨laid.bound, laid.closed, laid.idle⟩
  refine keeps_bind (keeps_register name node) fun _ => ?_
  refine keeps_bind (keeps_modifyGet fun stand laid => ?_) fun _ => ?_
  · exact ⟨laid.bound, laid.closed, laid.idle⟩
  refine keeps_bind keeps_get fun _ => ?_
  refine keeps_bind (keeps_laid_order trivial) fun _ => ?_
  refine keeps_bind (keeps_laid_order trivial) fun _ => ?_
  refine keeps_bind (keeps_laid_modify (fun _ => rfl) fun _ => rfl) fun _ => ?_
  exact keeps_laid_modify (fun _ => rfl) fun _ => rfl

theorem keeps_declareNode (steps : List DocumentStep) (name : String) :
    Keeps (Laid id) (declareNode id steps name) := by
  rw [declareNode]
  split
  · exact keeps_addNode name
  · exact keeps_laid_modify (fun _ => rfl) fun _ => rfl

theorem keeps_resolvePair (first second : String) (number : Nat) :
    Keeps (Laid id) (resolvePair first second number) := by
  refine keeps_bind keeps_get fun _ => ?_
  exact keeps_bind (keeps_attempt _) fun _ => keeps_bind (keeps_attempt _) fun _ => keeps_pure _

theorem keeps_meetNeighbour (node : NodeId) (address : Ipv4Address) :
    Keeps (Laid id) (meetNeighbour node address) := by
  refine keeps_bind keeps_get fun _ => ?_
  exact keeps_bind (keeps_laid_modify (fun _ => rfl) fun _ => rfl) fun _ => keeps_attempt _

theorem keeps_addLink (pair : Pair NodeId) : Keeps (Laid id) (addLink id pair) := by
  have allots : Keeps (Laid id) (allot pair) := by
    refine keeps_bind keeps_get fun _ => ?_
    exact keeps_bind (keeps_laid_modify (fun _ => rfl) fun _ => rfl) fun _ => keeps_attempt _
  refine keeps_bind allots fun allotment => ?_
  refine keeps_bind (keeps_laid_order rfl) fun _ => ?_
  refine keeps_bind (keeps_meetNeighbour _ _) fun _ => ?_
  refine keeps_bind (keeps_meetNeighbour _ _) fun _ => ?_
  exact keeps_laid_modify (fun _ => rfl) fun _ => rfl

theorem keeps_linkEdge (line : EdgeLine) : Keeps (Laid id) (linkEdge id line) := by
  cases line with
  | add edge first second number =>
      refine keeps_bind (keeps_resolvePair first second number) fun pair => ?_
      refine keeps_bind keeps_get fun conductor => ?_
      cases (conductor.addresses.get? pair).isNone with
      | true => exact keeps_addLink pair
      | false => exact keeps_pure ()
  | delete edge number => exact keeps_pure ()

theorem keeps_configureNode (node : NodeId) (template : String) :
    Keeps (Laid id) (configureNode id node template) := by
  refine keeps_bind keeps_get fun _ => ?_
  refine keeps_bind (keeps_laid_modify (fun _ => rfl) fun _ => rfl) fun _ => ?_
  refine keeps_bind (keeps_attempt _) fun _ => ?_
  refine keeps_bind keeps_get fun _ => ?_
  refine keeps_bind (keeps_laid_order trivial) fun _ => ?_
  exact keeps_laid_modify (fun _ => rfl) fun _ => rfl

theorem keeps_launch : Keeps (Laid id) (launch id) := by
  refine keeps_bind keeps_get fun conductor => ?_
  have confirmed : Keeps (Laid id) (Course.confirm .start) := fun stand laid value next performed =>
    laid.alike (ensures_confirm .start value next performed)
  cases conductor.settings.interactive with
  | true => exact keeps_bind confirmed fun _ => keeps_laid_order trivial
  | false => exact keeps_laid_order trivial

theorem ensures_populate (bound : stand.conductor.registry.Bound)
    (closed : stand.conductor.openEdges = ∅) (nodes : List String) (steps : List DocumentStep) :
    (populate nodes steps).Ensures stand Laid := by
  refine ensures_bind (ensures_openSession bound closed) fun id opened laid => ?_
  refine ensures_bind (keeps_addControlNode opened laid) fun _ controlled now => ?_
  refine ensures_bind (keeps_forM (keeps_declareNode steps) controlled now) ?_
  exact fun _ last laidLast => ensures_of_ok (perform_pure last id) laidLast

/-- Preparations that succeed leave all links down and no edge open. -/
theorem ensures_prepare (bound : stand.conductor.registry.Bound)
    (closed : stand.conductor.openEdges = ∅) (document : Document) (steps : List DocumentStep) :
    (prepare document steps).Ensures stand Laid := by
  have reaches : ∀ id phase, Keeps (Laid id) (reach phase) := fun id phase =>
    keeps_laid_modify (fun _ => rfl) fun _ => rfl
  have links : ∀ id, Keeps (Laid id) (linkAll id steps) := fun id =>
    keeps_forM fun moment => keeps_forM keeps_linkEdge
  have configures : ∀ id, Keeps (Laid id) (configureAll id) := fun id =>
    keeps_bind keeps_get fun conductor =>
      keeps_forM fun entry => keeps_configureNode entry.1 entry.2
  refine ensures_bind (ensures_populate bound closed document.nodes steps) fun id next laid => ?_
  refine ensures_bind (reaches id .linking next laid) fun _ next laid => ?_
  refine ensures_bind (links id next laid) fun _ next laid => ?_
  refine ensures_bind (reaches id .configuring next laid) fun _ next laid => ?_
  refine ensures_bind (configures id next laid) fun _ next laid => ?_
  refine ensures_bind (keeps_launch next laid) fun _ next laid => ?_
  refine ensures_bind (reaches id .running next laid) fun _ next laid => ?_
  exact ensures_of_ok (perform_pure next id) laid

end Prepare

end Conductor

end ContactReplay
