import ContactReplay.Proofs.Replay.Playing
import Mathlib.Data.Finset.Image
import Mathlib.Data.String.Basic

/-!
# Running a replay

A run prepares a session, plays its steps and tears the session down.  Whether it ends well is
decided by the document alone: `Document.Playable` asks that the ends of the added edges are
declared once, that there is a subnet for every pair, and that edges are added and deleted in turn.
`replay_ok_iff` says that a replay in calm surroundings succeeds exactly then.
-/

namespace ContactReplay

/-! ## Playable documents -/

/-- The order of names is one and the same, whichever orders of texts a module knows of. -/
instance orientedOrdNames : Std.OrientedOrd String := Std.TransCmp.toOrientedCmp

namespace EdgeLine

/-- The names of the nodes that a line joins. -/
def endNames : EdgeLine → List String
  | .add _ first second _ => [first, second]
  | .delete .. => []

/-- The pair of names that a line joins. -/
def namePair? : EdgeLine → Option (Pair String)
  | .add _ first second _ => some (.of first second)
  | .delete .. => none

end EdgeLine

/-- No edge is added that is up and none is deleted that is not, given the edges that are up. -/
def TakesTurns (up : List String) : List EdgeLine → Prop
  | [] => True
  | .add edge _ _ _ :: rest => edge ∉ up ∧ TakesTurns (edge :: up) rest
  | .delete edge _ :: rest => edge ∈ up ∧ TakesTurns (up.filter (· ≠ edge)) rest

/-- The lines of the steps that are to be replayed. -/
def Document.chosenLines (document : Document) (settings : Settings) : List EdgeLine :=
  (Conductor.chooseSteps settings document).flatMap (·.lines)

/-- A document that can be replayed with some settings. -/
structure Document.Playable (document : Document) (settings : Settings) : Prop where
  declared : ∀ name ∈ (document.chosenLines settings).flatMap EdgeLine.endNames,
    document.nodes.count name = 1
  roomy : ((document.chosenLines settings).filterMap EdgeLine.namePair?).toFinset.card ≤
    settings.addressing.subnetCapacity.toNat
  takesTurns : TakesTurns [] (document.chosenLines settings)

/-! ## Names and identifiers -/

/-- Exactly some names are bound, and no two of them to one identifier. -/
structure Registry.Faithful (registry : Registry) (names : List String) : Prop where
  known : ∀ name, (∃ id, registry.id? name = some id) ↔ name ∈ names
  injective : ∀ first second id, registry.id? first = some id → registry.id? second = some id →
    first = second

section Names

variable {registry : Registry} {names : List String} {lines : List EdgeLine}

theorem Registry.Faithful.known_iff (faithful : registry.Faithful names) (line : EdgeLine) :
    Conductor.Known registry line ↔ ∀ name ∈ line.endNames, name ∈ names := by
  cases line with
  | delete edge number => simp [Conductor.Known, EdgeLine.endNames]
  | add edge first second number =>
      rw [EdgeLine.endNames, List.forall_mem_cons, List.forall_mem_singleton,
        ← faithful.known, ← faithful.known, Conductor.Known]
      constructor
      · rintro ⟨pair, known⟩
        obtain ⟨firstId, secondId, firstBound, secondBound, -⟩ :=
          Registry.pair?_eq_some_iff.mp known
        exact ⟨⟨firstId, firstBound⟩, secondId, secondBound⟩
      · rintro ⟨⟨firstId, firstBound⟩, secondId, secondBound⟩
        exact ⟨_, Registry.pair?_eq_some_iff.mpr
          ⟨firstId, secondId, firstBound, secondBound, rfl⟩⟩

theorem Registry.Faithful.forall_known_iff (faithful : registry.Faithful names) :
    (∀ line ∈ lines, Conductor.Known registry line) ↔
      ∀ name ∈ lines.flatMap EdgeLine.endNames, name ∈ names := by
  simp only [faithful.known_iff, List.mem_flatMap]
  constructor
  · rintro known name ⟨line, member, isEnd⟩
    exact known line member name isEnd
  · intro known line member name isEnd
    exact known name ⟨line, member, isEnd⟩

theorem Registry.Faithful.pair?_injective (faithful : registry.Faithful names)
    {first second third fourth : String} {pair : Pair NodeId}
    (left : registry.pair? first second = some pair)
    (right : registry.pair? third fourth = some pair) :
    Pair.of first second = Pair.of third fourth := by
  obtain ⟨firstId, secondId, firstBound, secondBound, rfl⟩ := Registry.pair?_eq_some_iff.mp left
  obtain ⟨thirdId, fourthId, thirdBound, fourthBound, same⟩ := Registry.pair?_eq_some_iff.mp right
  rw [Pair.of_eq_of_iff] at same ⊢
  rcases same with ⟨rfl, rfl⟩ | ⟨rfl, rfl⟩
  · exact Or.inl ⟨faithful.injective _ _ _ firstBound thirdBound,
      faithful.injective _ _ _ secondBound fourthBound⟩
  · exact Or.inr ⟨faithful.injective _ _ _ firstBound fourthBound,
      faithful.injective _ _ _ secondBound thirdBound⟩

theorem Registry.pair?_of (registry : Registry) (first second : String) :
    registry.pair? (Pair.of first second).low (Pair.of first second).high =
      registry.pair? first second := by
  rcases Pair.of_eq_or first second with ⟨low, high⟩ | ⟨low, high⟩
  · rw [low, high]
  · rw [low, high, Registry.pair?, Registry.pair?]
    cases registry.id? first <;> cases registry.id? second <;> try rfl
    exact congrArg some (Pair.of_comm _ _)

/-- Known lines join as many pairs of names as pairs of identifiers. -/
theorem Registry.Faithful.card_joinedPairs (faithful : registry.Faithful names)
    (known : ∀ line ∈ lines, Conductor.Known registry line) :
    (joinedPairs registry lines).toFinset.card =
      (lines.filterMap EdgeLine.namePair?).toFinset.card := by
  let ids : Pair String → Pair NodeId := fun pair =>
    (registry.pair? pair.low pair.high).getD (.of 0 0)
  have resolved : ∀ {first second : String} {pair : Pair NodeId},
      registry.pair? first second = some pair → ids (.of first second) = pair := by
    intro first second pair same
    simp only [ids, Registry.pair?_of, same, Option.getD_some]
  have mapped : joinedPairs registry lines = (lines.filterMap EdgeLine.namePair?).map ids := by
    rw [joinedPairs, List.map_filterMap]
    apply List.filterMap_congr
    intro line member
    have lineKnown := known line member
    cases line with
    | delete edge number => rfl
    | add edge first second number =>
        obtain ⟨pair, same⟩ := lineKnown
        rw [EdgeLine.pair?, EdgeLine.namePair?, same, Option.map_some, resolved same]
  have image : (joinedPairs registry lines).toFinset =
      (lines.filterMap EdgeLine.namePair?).toFinset.image ids := by
    ext pair
    simp [mapped]
  have knownPair : ∀ pair ∈ lines.filterMap EdgeLine.namePair?,
      ∃ first second number, pair = .of first second ∧
        registry.pair? first second = some number := by
    intro pair member
    obtain ⟨line, lineMember, named⟩ := List.mem_filterMap.mp member
    have lineKnown := known line lineMember
    cases line with
    | delete edge number => cases named
    | add edge first second number =>
        obtain ⟨pairIds, same⟩ := lineKnown
        exact ⟨first, second, pairIds, (Option.some.inj named).symm, same⟩
  rw [image, Finset.card_image_of_injOn]
  intro left leftMember right rightMember same
  rw [Finset.mem_coe, List.mem_toFinset] at leftMember rightMember
  obtain ⟨first, second, leftIds, rfl, leftSame⟩ := knownPair left leftMember
  obtain ⟨third, fourth, rightIds, rfl, rightSame⟩ := knownPair right rightMember
  rw [resolved leftSame, resolved rightSame] at same
  subst same
  exact faithful.pair?_injective leftSame rightSame

/-- Known lines can be played one after the other if their edges take turns. -/
theorem succession_canPlay_iff {past : List EdgeLine} {up : List String}
    (known : ∀ line ∈ lines, Conductor.Known registry line)
    (same : ∀ edge, edge ∈ up ↔ ∃ pair, openPair? registry edge past = some pair) :
    Succession (Conductor.CanPlay registry) past lines ↔ TakesTurns up lines := by
  induction lines generalizing past up with
  | nil => exact Iff.rfl
  | cons line rest inductionHypothesis =>
      obtain ⟨lineKnown, restKnown⟩ := List.forall_mem_cons.mp known
      cases line with
      | add edge first second number =>
          obtain ⟨pair, resolved⟩ := lineKnown
          have now : openPair? registry edge past = none ↔ edge ∉ up := by
            rw [same, Option.eq_none_iff_forall_ne_some, not_exists]
          refine and_congr now (inductionHypothesis restKnown fun other => ?_)
          rw [List.mem_cons, openPair?]
          by_cases sameEdge : edge = other
          · simp [sameEdge, resolved]
          · simp [sameEdge, Ne.symm sameEdge, same]
      | delete edge number =>
          refine and_congr (same edge).symm (inductionHypothesis restKnown fun other => ?_)
          rw [List.mem_filter, openPair?]
          by_cases sameEdge : edge = other
          · simp [sameEdge]
          · simp [sameEdge, Ne.symm sameEdge, same]

end Names

namespace Conductor

/-! ## Before the first step -/

/-- All of a run before its first step. -/
def prepare (document : Document) (steps : List DocumentStep) : Course SessionId := do
  let session ← populate document.nodes steps
  Course.reach .linking
  linkAll session steps
  Course.reach .configuring
  configureAll session
  launch session
  Course.reach .running
  return session

section Prepare

variable {chosen : Settings} {files : Table FileName String} {id : SessionId}
  {registry : Registry} {addresses : AddressBook} {session : Session} {stand : Stand}

theorem Populating.faithful {first : Nat} {joined : List String}
    (populating : Populating chosen files id first joined session stand) :
    stand.conductor.registry.Faithful joined where
  known := populating.joined
  injective firstName secondName node firstBound secondBound := by
    have firstHeld := (populating.cast.bound firstName node).mp firstBound
    have secondHeld := (populating.cast.bound secondName node).mp secondBound
    rw [firstHeld] at secondHeld
    exact Option.some.inj secondHeld

/-- Once a session is launched, nothing has been played and all links are down. -/
theorem Settled.decides_launch (settled : Settled files id registry addresses session stand) :
    Course.Decides (launch id) stand True fun _ next => ∃ launched,
      Playing files id registry addresses [] launched next := by
  have mode : ∀ current, Settled files id registry addresses session current →
      Course.Decides (Course.order id (.setMode .instantiation)) current True fun _ next =>
        ∃ launched, Playing files id registry addresses [] launched next := by
    intro current now
    have carried : session.carryOut files (.setMode .instantiation) =
        .ok ((), { session with mode := some .instantiation }) := rfl
    obtain ⟨afterMode, modeOk, holdsMode⟩ := now.holds.perform_order carried now.holds.usable
    refine Course.decides_of_ok modeOk trivial ⟨_, holdsMode, now.registered, now.booked, ?_,
      now.named, ⟨now.linked.linked, now.linked.unlinked⟩, fun pair member => ?_⟩
    · intro edge
      rw [now.closed]
      rfl
    · cases member
  rw [launch]
  apply Course.decides_bind_of_ok (Course.perform_get stand)
  split
  · apply Course.decides_bind_of_ok (Course.perform_confirm settled.holds.calm _)
    exact mode _ ⟨settled.holds.hear _ _, settled.registered, settled.booked, settled.closed,
      settled.named, settled.linked⟩
  · exact mode _ settled

/-- A session is ready to play some lines that join some names. -/
structure Ready (files : Table FileName String) (id : SessionId) (names : List String)
    (lines : List EdgeLine) (registry : Registry) (addresses : AddressBook) (session : Session)
    (stand : Stand) : Prop extends Playing files id registry addresses [] session stand where
  faithful : registry.Faithful names
  prepared : ∀ line ∈ lines, Prepared registry addresses line

theorem Linking.prepared {lines : List EdgeLine}
    (linking : Linking chosen files id registry lines.reverse session stand)
    (known : ∀ line ∈ lines, Known registry line) :
    ∀ line ∈ lines, Prepared registry stand.conductor.addresses line := by
  refine fun line member => ⟨known line member, fun pair joins => ?_⟩
  refine (linking.allotted pair).mpr (List.mem_filterMap.mpr ⟨line, ?_, joins⟩)
  rwa [List.mem_reverse]

theorem Linking.decides_afterwards {lines : List EdgeLine} {names : List String}
    (linking : Linking chosen files id registry lines.reverse session stand)
    (faithful : registry.Faithful names) (known : ∀ line ∈ lines, Known registry line) :
    Course.Decides (do
        Course.reach .configuring
        configureAll id
        launch id
        Course.reach .running
        return id) stand True fun value next => value = id ∧ ∃ addresses launched,
      Ready files id names lines registry addresses launched next := by
  have prepared := linking.prepared known
  apply Course.decides_bind_of_ok (Course.perform_reach _ _)
  have now : Linking chosen files id registry lines.reverse session
      { stand with conductor := { stand.conductor with phase := .configuring } } :=
    ⟨linking.holds.conducted _, linking.settings, linking.registered,
      ⟨linking.cast.bound, linking.cast.named, linking.cast.configured⟩, linking.unconfigured,
      linking.closed, linking.plan, linking.counted, linking.allotted, linking.linked⟩
  apply Course.decides_bind_true now.decides_configureAll
  rintro _ configured ⟨written, settled⟩
  apply Course.decides_bind_true settled.decides_launch
  rintro _ launched ⟨held, playing⟩
  apply Course.decides_bind_of_ok (Course.perform_reach _ _)
  refine Course.decides_of_ok (Course.perform_pure _ _) trivial
    ⟨rfl, stand.conductor.addresses, held, ?_, faithful, prepared⟩
  exact ⟨playing.holds.conducted _, playing.registered, playing.booked, playing.opened,
    playing.named, playing.linked, playing.allotted⟩

/-- Preparations succeed if every node that takes part is declared once and there is a subnet for
every pair. -/
theorem decides_prepare {document : Document} {steps : List DocumentStep}
    (calm : stand.rehearsal.Calm) (unused : stand.conductor = fresh chosen)
    (stocked : stand.rehearsal.testbed.serviceFiles.contains (configName chosen) = true)
    (small : chosen.addressing.subnetCapacity.toNat ≤ 256)
    (few : document.nodes.length < UInt32.size - 2) :
    Course.Decides (prepare document steps) stand
      ((document.nodes.filter (takesPart steps)).Nodup ∧
        (∀ name ∈ (steps.flatMap (·.lines)).flatMap EdgeLine.endNames,
          name ∈ document.nodes.filter (takesPart steps)) ∧
        ((steps.flatMap (·.lines)).filterMap EdgeLine.namePair?).toFinset.card ≤
          chosen.addressing.subnetCapacity.toNat)
      fun id next => ∃ registry addresses session,
        Ready stand.rehearsal.testbed.serviceFiles id
          (document.nodes.reverse.filter (takesPart steps)) (steps.flatMap (·.lines)) registry
          addresses session next := by
  rw [prepare]
  apply Course.decides_bind (decides_populate calm unused stocked few)
  rintro - id populated ⟨first, session, populating⟩
  apply Course.decides_bind_of_ok (Course.perform_reach _ _)
  have faithful := populating.faithful
  have linkable := (populating.linking .linking).decides_linkAll small steps
  have condition : ((∀ line ∈ steps.flatMap (·.lines),
        Known populated.conductor.registry line) ∧
      (joinedPairs populated.conductor.registry (steps.flatMap (·.lines))).toFinset.card ≤
        chosen.addressing.subnetCapacity.toNat) ↔
      (∀ name ∈ (steps.flatMap (·.lines)).flatMap EdgeLine.endNames,
          name ∈ document.nodes.filter (takesPart steps)) ∧
        ((steps.flatMap (·.lines)).filterMap EdgeLine.namePair?).toFinset.card ≤
          chosen.addressing.subnetCapacity.toNat := by
    have sameNames : ∀ name, name ∈ document.nodes.reverse.filter (takesPart steps) ↔
        name ∈ document.nodes.filter (takesPart steps) := by
      simp
    simp only [← sameNames]
    rw [← faithful.forall_known_iff]
    apply and_congr_right
    intro known
    rw [faithful.card_joinedPairs known]
  refine (Course.decides_bind linkable fun holds _ linked ⟨held, linking⟩ => ?_).congr
    ((and_iff_left trivial).trans condition)
  apply (linking.decides_afterwards faithful holds.1).imp
  rintro _ next ⟨rfl, addresses, launched, ready⟩
  exact ⟨_, addresses, launched, ready⟩

end Prepare

/-! ## The steps and the end -/

/-- The rest of a run, with the steps that follow a step `last`. -/
def finish (session : SessionId) (last : UInt64) (steps : List DocumentStep) : Course Report := do
  playSteps session last steps
  Course.reach .terminal
  Course.order session .teardown
  return (← get).report

/-- A run that begins is prepared and then finished. -/
theorem perform_run {stand : Stand} (unspent : stand.conductor.isSpent = false)
    (document : Document) :
    (run document).perform stand =
      (prepare document (chooseSteps stand.conductor.settings document) >>= fun session =>
        finish session 0 (chooseSteps stand.conductor.settings document)).perform stand := by
  have begins : ¬ stand.conductor.isSpent = true := by
    rw [unspent]
    exact Bool.false_ne_true
  rw [run, Course.perform_bind_ok (Course.perform_get stand), if_neg begins,
    Course.perform_bind_ok (Course.perform_get stand)]
  simp only [prepare, finish, bind_assoc, pure_bind]

section Finish

variable {files : Table FileName String} {id : SessionId} {registry : Registry}
  {addresses : AddressBook} {past : List EdgeLine} {session : Session} {stand : Stand}

theorem Playing.decides_finish
    (playing : Playing files id registry addresses past session stand) (last : UInt64)
    {steps : List DocumentStep}
    (prepared : ∀ line ∈ steps.flatMap (·.lines), Prepared registry addresses line) :
    Course.Decides (finish id last steps) stand
      (Succession (CanPlay registry) past (steps.flatMap (·.lines))) fun _ _ => True := by
  rw [finish]
  refine (Course.decides_bind (playing.decides_playSteps last prepared) ?_).congr
    (iff_of_eq (and_true _))
  rintro - _ played ⟨held, playingOn⟩
  apply Course.decides_bind_of_ok (Course.perform_reach _ _)
  have carried : held.carryOut files .teardown = .ok ((), { held with tornDown := true }) := rfl
  obtain ⟨afterTeardown, teardownOk, -⟩ :=
    (playingOn.holds.conducted { played.conductor with phase := .terminal }).perform_carried carried
  apply Course.decides_bind_of_ok teardownOk
  exact Course.decides_of_ok rfl trivial trivial

end Finish

/-! ## Whole runs -/

theorem takesPart_iff {steps : List DocumentStep} {name : String} :
    takesPart steps name = true ↔
      name ∈ (steps.flatMap (·.lines)).flatMap EdgeLine.endNames := by
  simp only [takesPart, List.any_eq_true, List.mem_flatMap]
  constructor
  · rintro ⟨moment, momentMember, line, lineMember, joins⟩
    refine ⟨line, ⟨moment, momentMember, lineMember⟩, ?_⟩
    cases line with
    | delete edge number => cases joins
    | add edge first second number =>
        simp only [EdgeLine.ends?, Bool.or_eq_true, decide_eq_true_eq] at joins
        rcases joins with rfl | rfl
        · exact List.mem_cons_self
        · exact List.mem_cons_of_mem _ List.mem_cons_self
  · rintro ⟨line, ⟨moment, momentMember, lineMember⟩, isEnd⟩
    refine ⟨moment, momentMember, line, lineMember, ?_⟩
    cases line with
    | delete edge number => cases isEnd
    | add edge first second number =>
        simp only [EdgeLine.endNames, List.mem_cons, List.not_mem_nil, or_false] at isEnd
        simp only [EdgeLine.ends?, Bool.or_eq_true, decide_eq_true_eq]
        exact isEnd.imp Eq.symm Eq.symm

/-- The nodes that take part are declared once if none of them is declared twice and all are
declared. -/
theorem forall_count_eq_one_iff {steps : List DocumentStep} {names : List String} :
    (∀ name ∈ (steps.flatMap (·.lines)).flatMap EdgeLine.endNames, names.count name = 1) ↔
      (names.filter (takesPart steps)).Nodup ∧
        ∀ name ∈ (steps.flatMap (·.lines)).flatMap EdgeLine.endNames,
          name ∈ names.filter (takesPart steps) := by
  simp only [← takesPart_iff, List.nodup_iff_count_le_one, List.mem_filter]
  constructor
  · intro once
    refine ⟨fun name => ?_, fun name joins => ⟨?_, joins⟩⟩
    · by_cases joins : takesPart steps name = true
      · rw [List.count_filter joins, once name joins]
      · have absent : name ∉ names.filter (takesPart steps) :=
          fun member => joins (List.mem_filter.mp member).2
        rw [List.count_eq_zero.mpr absent]
        exact Nat.zero_le 1
    · rw [← List.count_pos_iff, once name joins]
      exact Nat.zero_lt_one
  · rintro ⟨atMostOnce, declared⟩ name joins
    have atMost := atMostOnce name
    rw [List.count_filter joins] at atMost
    exact Nat.le_antisymm atMost (List.count_pos_iff.mpr (declared name joins).1)

theorem playable_iff {chosen : Settings} {document : Document} :
    document.Playable chosen ↔
      ((document.nodes.filter (takesPart (chooseSteps chosen document))).Nodup ∧
        (∀ name ∈ (document.chosenLines chosen).flatMap EdgeLine.endNames,
          name ∈ document.nodes.filter (takesPart (chooseSteps chosen document))) ∧
        ((document.chosenLines chosen).filterMap EdgeLine.namePair?).toFinset.card ≤
          chosen.addressing.subnetCapacity.toNat) ∧
      TakesTurns [] (document.chosenLines chosen) := by
  constructor
  · rintro ⟨declared, roomy, turns⟩
    obtain ⟨distinct, all⟩ := forall_count_eq_one_iff.mp declared
    exact ⟨⟨distinct, all, roomy⟩, turns⟩
  · rintro ⟨⟨distinct, all, roomy⟩, turns⟩
    exact ⟨forall_count_eq_one_iff.mpr ⟨distinct, all⟩, roomy, turns⟩

section Ready

variable {files : Table FileName String} {id : SessionId} {names : List String}
  {lines : List EdgeLine} {registry : Registry} {addresses : AddressBook} {session : Session}
  {stand : Stand}

theorem Ready.succession_iff
    (ready : Ready files id names lines registry addresses session stand) :
    Succession (CanPlay registry) [] lines ↔ TakesTurns [] lines := by
  apply succession_canPlay_iff (fun line member => (ready.prepared line member).1)
  simp [openPair?]

end Ready

/-- A run ends well exactly if its document can be replayed. -/
theorem decides_run {chosen : Settings} {stand : Stand} {document : Document}
    (calm : stand.rehearsal.Calm) (unused : stand.conductor = fresh chosen)
    (stocked : stand.rehearsal.testbed.serviceFiles.contains (configName chosen) = true)
    (small : chosen.addressing.subnetCapacity.toNat ≤ 256)
    (few : document.nodes.length < UInt32.size - 2) :
    Course.Decides (prepare document (chooseSteps chosen document) >>= fun session =>
      finish session 0 (chooseSteps chosen document)) stand (document.Playable chosen)
      fun _ _ => True := by
  refine (Course.decides_bind (decides_prepare calm unused stocked small few) ?_).congr
    playable_iff.symm
  rintro - id next ⟨registry, addresses, session, ready⟩
  exact (ready.toPlaying.decides_finish 0 ready.prepared).congr ready.succession_iff

end Conductor

namespace Rehearsal

/-- A replay in calm surroundings with the configuration files it needs succeeds exactly if its
document can be replayed. -/
theorem replay_ok_iff {settings : Settings} {conductor : Conductor} {rehearsal : Rehearsal}
    {document : Document} (accepted : Conductor.start settings = .ok conductor)
    (stocked : rehearsal.testbed.serviceFiles.contains ⟨settings.service, settings.configFile⟩ =
      true)
    (faultless : rehearsal.faults = {}) (uncancelled : rehearsal.cancelled = false)
    (few : document.nodes.length < UInt32.size - 2) :
    (∃ report, (rehearsal.replay conductor document).1 = .ok report) ↔
      document.Playable settings := by
  obtain ⟨rfl, small⟩ := Conductor.eq_fresh_of_start accepted
  have decides := @Conductor.decides_run settings ⟨Conductor.fresh settings, rehearsal⟩ document
    ⟨faultless, uncancelled⟩ rfl stocked small few
  have performed : (rehearsal.replay (Conductor.fresh settings) document).1 =
      ((Conductor.run document).perform ⟨Conductor.fresh settings, rehearsal⟩).1 := rfl
  rw [← decides.ok_iff, performed, Conductor.perform_run rfl]
  rfl

/-- A rehearsal whose nodes have the configuration file of the default settings. -/
def stocked : Rehearsal where
  testbed := { serviceFiles := .ofList [(⟨"dtnd", "dtnd.toml"⟩, "")] }

/-- A single step with some lines; a node that takes no part is declared twice. -/
def singleStep (lines : List EdgeLine) : Document :=
  ⟨⟨"contacts", 2, 6⟩, ["a", "b", "c", "c"], [⟨5, 8, lines⟩]⟩

theorem replay_ok_iff_singleStep :
    (∃ report, (stocked.replay (.fresh {})
      (singleStep [.add "e0" "a" "b" 9, .delete "e0" 10])).1 = .ok report) ∧
    ¬ ∃ report, (stocked.replay (.fresh {})
      (singleStep [.add "e0" "a" "b" 9, .add "e0" "b" "a" 10])).1 = .ok report := by
  have decided : ∀ lines, _ := fun lines => @replay_ok_iff {} (.fresh {}) stocked
    (singleStep lines) (by rfl) (by decide) rfl rfl (show 4 < UInt32.size - 2 by decide)
  refine ⟨(decided _).mpr ⟨by decide, by decide, ?_⟩, fun succeeds => ?_⟩
  · simp [TakesTurns, Document.chosenLines, Conductor.chooseSteps, singleStep]
  · have turns := ((decided _).mp succeeds).takesTurns
    simp [TakesTurns, Document.chosenLines, Conductor.chooseSteps, singleStep] at turns

end Rehearsal

end ContactReplay
