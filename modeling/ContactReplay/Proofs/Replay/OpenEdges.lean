import ContactReplay.GraphStream.Reader
import ContactReplay.Proofs.Replay.Acts

/-!
# Open edges and links

A conductor remembers the edges that are open by their names, and a testbed the loss of its links by
the pairs of their nodes.  The two agree at a point of a run if a link is up exactly when an open
edge joins its nodes.

* Several edges may join the same two nodes.  A line severs if it deletes one of several open edges
  of two nodes: their link goes down, and an edge of theirs stays open.
* `Tracking` is the invariant of playing.  It asks nothing of the surroundings.
* `firm_iff` reads the agreement off the lines that have been carried out, and
  `agrees_throughout_iff` says that a run keeps it exactly as long as no line severs.
-/

namespace ContactReplay

/-- The names of the nodes of an edge that is open after past lines. -/
def openEnds? (edge : String) : List EdgeLine → Option (Pair String)
  | [] => none
  | .add other first second _ :: earlier =>
      if other = edge then some (.of first second) else openEnds? edge earlier
  | .delete other _ :: earlier => if other = edge then none else openEnds? edge earlier

/-- A line deletes an edge while another edge of the same two nodes is open. -/
def EdgeLine.Severs (past : List EdgeLine) : EdgeLine → Prop
  | .add .. => False
  | .delete edge _ => ∃ other pair, other ≠ edge ∧ openEnds? edge past = some pair ∧
      openEnds? other past = some pair

/-- None of some lines severs. -/
def NeverSevers (lines : List EdgeLine) : Prop :=
  Succession (fun past line => ¬line.Severs past) [] lines

/-- The links of a session that are up are those whose nodes an open edge joins. -/
def Stand.Agrees (stand : Stand) (id : SessionId) : Prop :=
  ∃ session, stand.rehearsal.testbed.session? id = some session ∧
    ∀ pair link, session.links.get? pair = some link →
      (link.isUp = true ↔ ∃ edge, stand.conductor.openEdges.get? edge = some pair)

namespace Conductor

/-! ## Agreement in terms of lines -/

/-- The links of all open edges are up after past lines. -/
def Firm (registry : Registry) (past : List EdgeLine) : Prop :=
  ∀ edge pair, openPair? registry edge past = some pair →
    (lossAfter registry pair past).isUp = true

section Lines

variable {registry : Registry} {past lines : List EdgeLine} {names : List String}

theorem isUp_up : Loss.up.isUp = true := rfl

theorem isUp_down : Loss.down.isUp = false := by decide +kernel

theorem openPair?_eq_some_iff {edge : String} {pair : Pair NodeId} :
    openPair? registry edge past = some pair ↔ ∃ ends, openEnds? edge past = some ends ∧
      registry.pair? ends.low ends.high = some pair := by
  induction past with
  | nil => simp [openPair?, openEnds?]
  | cons line earlier inductionHypothesis =>
      cases line with
      | add other first second number =>
          rw [openPair?, openEnds?]
          split
          · simp [Registry.pair?_of]
          · exact inductionHypothesis
      | delete other number =>
          rw [openPair?, openEnds?]
          split
          · simp
          · exact inductionHypothesis

/-- Whether a line severs can be told from identifiers as well as from names. -/
theorem severs_delete_iff (faithful : registry.Faithful names) {edge : String} {number : Nat}
    {pair : Pair NodeId} (opened : openPair? registry edge past = some pair) :
    (EdgeLine.delete edge number).Severs past ↔
      ∃ other, other ≠ edge ∧ openPair? registry other past = some pair := by
  obtain ⟨ends, openNames, known⟩ := openPair?_eq_some_iff.mp opened
  constructor
  · rintro ⟨other, shared, different, same, otherSame⟩
    rw [openNames] at same
    obtain rfl := Option.some.inj same
    exact ⟨other, different, openPair?_eq_some_iff.mpr ⟨ends, otherSame, known⟩⟩
  · rintro ⟨other, different, otherOpened⟩
    obtain ⟨otherEnds, otherNames, otherKnown⟩ := openPair?_eq_some_iff.mp otherOpened
    have same := faithful.pair?_injective otherKnown known
    rw [Pair.of_low_high, Pair.of_low_high] at same
    exact ⟨other, ends, different, openNames, same ▸ otherNames⟩

/-- A line that can be played keeps all open edges firm unless it severs. -/
theorem Firm.cons_iff (firm : Firm registry past) (faithful : registry.Faithful names)
    {line : EdgeLine} (canPlay : CanPlay registry past line) :
    Firm registry (line :: past) ↔ ¬line.Severs past := by
  cases line with
  | add edge first second number =>
      refine iff_of_true (fun other pair opened => ?_) id
      rw [lossAfter]
      split
      · exact isUp_up
      · rename_i unchanged
        rw [openPair?] at opened
        split at opened
        · exact absurd opened unchanged
        · exact firm other pair opened
  | delete edge number =>
      obtain ⟨changed, edgeOpen⟩ := canPlay
      rw [severs_delete_iff faithful edgeOpen]
      constructor
      · rintro stillFirm ⟨other, different, otherOpen⟩
        have opened : openPair? registry other (.delete edge number :: past) = some changed := by
          rwa [openPair?, if_neg (Ne.symm different)]
        have up := stillFirm other changed opened
        rw [lossAfter, changedPair?, if_pos edgeOpen, EdgeLine.loss, isUp_down] at up
        cases up
      · intro alone other pair opened
        rw [openPair?] at opened
        split at opened
        · cases opened
        · rename_i different
          have unchanged : ¬changedPair? registry past (.delete edge number) = some pair := by
            rw [changedPair?, edgeOpen]
            intro same
            obtain rfl := Option.some.inj same
            exact alone ⟨other, Ne.symm different, opened⟩
          rw [lossAfter, if_neg unchanged]
          exact firm other pair opened

/-- All open edges are firm after all beginnings of some lines exactly if none of them severs. -/
theorem forall_firm_iff (faithful : registry.Faithful names) (firm : Firm registry past)
    (playable : Succession (CanPlay registry) past lines) :
    (∀ before after, lines = before ++ after → Firm registry (before.reverse ++ past)) ↔
      Succession (fun past line => ¬line.Severs past) past lines := by
  induction lines generalizing past with
  | nil =>
      refine iff_of_true (fun before after parted => ?_) trivial
      obtain ⟨rfl, _⟩ := List.append_eq_nil_iff.mp parted.symm
      exact firm
  | cons line rest inductionHypothesis =>
      obtain ⟨canPlay, restPlayable⟩ := playable
      rw [Succession, ← firm.cons_iff faithful canPlay]
      constructor
      · intro always
        have next : Firm registry (line :: past) := always [line] rest rfl
        refine ⟨next, (inductionHypothesis next restPlayable).mp fun before after parted => ?_⟩
        have later := always (line :: before) after (congrArg (line :: ·) parted)
        rwa [List.reverse_cons, List.append_assoc] at later
      · rintro ⟨next, restSpares⟩ before after parted
        cases before with
        | nil => exact firm
        | cons first others =>
            obtain ⟨rfl, restParted⟩ := List.cons.inj parted
            rw [List.reverse_cons, List.append_assoc]
            exact (inductionHypothesis next restPlayable).mpr restSpares others after restParted

/-- A link that is up has an open edge, whatever the line was that set it up. -/
theorem exists_open_of_up {line : EdgeLine} {changed : Pair NodeId}
    (changes : changedPair? registry past line = some changed)
    (canPlay : CanPlay registry past line)
    (tracked : ∀ pair, (lossAfter registry pair past).isUp = true →
      ∃ edge, openPair? registry edge past = some pair)
    {pair : Pair NodeId} (up : (lossAfter registry pair (line :: past)).isUp = true) :
    ∃ edge, openPair? registry edge (line :: past) = some pair := by
  rw [lossAfter] at up
  cases line with
  | add edge first second number =>
      split at up
      · rename_i same
        exact ⟨edge, (if_pos rfl).trans same⟩
      · obtain ⟨other, opened⟩ := tracked pair up
        have different : edge ≠ other := by
          rintro rfl
          rw [CanPlay, opened] at canPlay
          cases canPlay
        exact ⟨other, (if_neg different).trans opened⟩
  | delete edge number =>
      split at up
      · rw [EdgeLine.loss, isUp_down] at up
        cases up
      · rename_i unchanged
        obtain ⟨other, opened⟩ := tracked pair up
        have different : edge ≠ other := by
          rintro rfl
          exact unchanged opened
        exact ⟨other, (if_neg different).trans opened⟩

end Lines

/-! ## Carrying lines out -/

/-- What holds after past lines, newest first, have been carried out. -/
structure Tracking (id : SessionId) (registry : Registry) (past : List EdgeLine) (stand : Stand) :
    Prop where
  registered : stand.conductor.registry = registry
  opened : ∀ edge, stand.conductor.openEdges.get? edge = openPair? registry edge past
  tracked : ∀ pair, (lossAfter registry pair past).isUp = true →
    ∃ edge, openPair? registry edge past = some pair
  played : Succession (CanPlay registry) [] past.reverse
  held : ∃ session, stand.rehearsal.testbed.session? id = some session ∧
    (∀ pair link, session.links.get? pair = some link →
      link.loss = lossAfter registry pair past) ∧
    ∀ edge pair, openPair? registry edge past = some pair →
      ∃ link, session.links.get? pair = some link

section CarryOut

variable {id : SessionId} {registry : Registry} {past : List EdgeLine} {stand next : Stand}

theorem Laid.tracking (laid : Laid id stand) :
    Tracking id stand.conductor.registry [] stand where
  registered := rfl
  opened edge := by
    rw [laid.closed]
    rfl
  tracked pair up := by
    rw [lossAfter, isUp_down] at up
    cases up
  played := trivial
  held := by
    obtain ⟨session, held, idle⟩ := laid.idle
    refine ⟨session, held, idle, ?_⟩
    intro edge pair up
    cases up

theorem Tracking.alike (tracking : Tracking id registry past stand)
    (alike : Course.Alike stand next) : Tracking id registry past next where
  registered := alike.conductor ▸ tracking.registered
  opened := alike.conductor ▸ tracking.opened
  tracked := tracking.tracked
  played := tracking.played
  held := alike.testbed ▸ tracking.held

/-- The stands agree with their open edges exactly if these are firm. -/
theorem Tracking.agrees_iff (tracking : Tracking id registry past stand) :
    stand.Agrees id ↔ Firm registry past := by
  obtain ⟨session, held, losses, linked⟩ := tracking.held
  have upIff : ∀ pair link, session.links.get? pair = some link →
      (link.isUp = true ↔ (lossAfter registry pair past).isUp = true) := by
    intro pair link found
    rw [SessionLink.isUp, losses pair link found]
  constructor
  · rintro ⟨other, otherHeld, agrees⟩ edge pair opened
    rw [held] at otherHeld
    obtain rfl := Option.some.inj otherHeld
    obtain ⟨link, found⟩ := linked edge pair opened
    rw [← upIff pair link found, agrees pair link found]
    exact ⟨edge, (tracking.opened edge).trans opened⟩
  · intro firm
    refine ⟨session, held, fun pair link found => ?_⟩
    rw [upIff pair link found]
    simp only [tracking.opened]
    exact ⟨tracking.tracked pair, fun ⟨edge, opened⟩ => firm edge pair opened⟩

theorem ensures_resolvePair (first second : String) (number : Nat) :
    (resolvePair first second number).Ensures stand fun pair next =>
      next = stand ∧ stand.conductor.registry.pair? first second = some pair := by
  cases known : stand.conductor.registry.pair? first second with
  | some pair =>
      exact Course.ensures_of_ok (perform_resolvePair_of_some known number) ⟨rfl, rfl⟩
  | none =>
      obtain ⟨error, failed⟩ := perform_resolvePair_of_none known number
      exact Course.ensures_of_error failed

/-- Setting the loss of a link changes that link only. -/
theorem ensures_setLoss (id : SessionId) (pair : Pair NodeId) (loss : Loss) :
    (setLoss id pair loss).Ensures stand fun _ next => next.conductor = stand.conductor ∧
      ∃ session link, stand.rehearsal.testbed.session? id = some session ∧
        session.links.get? pair = some link ∧
        next.rehearsal.testbed.session? id = some (withLoss session pair link loss) := by
  intro value next performed
  rw [setLoss, Course.perform_bind_ok (Course.perform_get stand)] at performed
  cases found : stand.conductor.addresses.get? pair with
  | none =>
      rw [found] at performed
      cases (Prod.mk.inj performed).1
  | some allotment =>
      rw [found] at performed
      dsimp only at performed
      obtain ⟨sameConductor, session, later, held, carried, heldLater⟩ :=
        Course.ensures_order id _ _ _ performed
      refine ⟨sameConductor, session, ?_⟩
      cases Session.carries_of_carryOut carried with
      | adjustLink _ link linked first second =>
          rw [LinkAdjustment.pair, Pair.of_low_high] at linked heldLater
          exact ⟨link, held, linked, heldLater⟩

/-- The links of open edges are there after a line as they were before it. -/
theorem exists_link_of_open {line : EdgeLine} {changed : Pair NodeId}
    (changes : changedPair? registry past line = some changed) {session : Session}
    {link : SessionLink}
    (linked : ∀ edge pair, openPair? registry edge past = some pair →
      ∃ link, session.links.get? pair = some link) (edge : String) (pair : Pair NodeId)
    (opened : openPair? registry edge (line :: past) = some pair) :
    ∃ kept, (withLoss session changed link line.loss).links.get? pair = some kept := by
  by_cases same : pair = changed
  · subst same
    exact ⟨_, Table.get?_insert_self _ _ _⟩
  · have before : openPair? registry edge past = some pair := by
      cases line with
      | add other first second number =>
          rw [openPair?] at opened
          split at opened
          · exact absurd (Option.some.inj (opened.symm.trans changes)) same
          · exact opened
      | delete other number =>
          rw [openPair?] at opened
          split at opened
          · cases opened
          · exact opened
    obtain ⟨kept, found⟩ := linked edge pair before
    exact ⟨kept, (Table.get?_insert_of_ne _ _ same).trans found⟩

/-- A line that has been carried out is tracked. -/
theorem Tracking.extend (tracking : Tracking id registry past stand) {line : EdgeLine}
    {changed : Pair NodeId} (changes : changedPair? registry past line = some changed)
    (canPlay : CanPlay registry past line) {session : Session} {link : SessionLink}
    (held : stand.rehearsal.testbed.session? id = some session)
    (registered : next.conductor.registry = registry)
    (opened : ∀ edge, next.conductor.openEdges.get? edge = openPair? registry edge (line :: past))
    (heldNext : next.rehearsal.testbed.session? id =
      some (withLoss session changed link line.loss)) :
    Tracking id registry (line :: past) next where
  registered := registered
  opened := opened
  tracked _ up := exists_open_of_up changes canPlay tracking.tracked up
  played := by
    rw [List.reverse_cons, succession_append, List.reverse_reverse, List.append_nil]
    exact ⟨tracking.played, canPlay, trivial⟩
  held := by
    obtain ⟨before, beforeHeld, losses, linked⟩ := tracking.held
    rw [held] at beforeHeld
    obtain rfl := Option.some.inj beforeHeld
    refine ⟨_, heldNext, fun pair kept keptFound => ?_, exists_link_of_open changes linked⟩
    rw [lossAfter, changes]
    by_cases same : changed = pair
    · subst same
      rw [withLoss, Table.get?_insert_self] at keptFound
      cases keptFound
      rw [if_pos rfl]
    · rw [withLoss, Table.get?_insert_of_ne _ _ (Ne.symm same)] at keptFound
      rw [if_neg fun equal => same (Option.some.inj equal)]
      exact losses pair kept keptFound

theorem Tracking.ensures_carryOut (tracking : Tracking id registry past stand) (step : UInt64)
    (line : EdgeLine) :
    (carryOut id step line).Ensures stand fun _ => Tracking id registry (line :: past) := by
  cases line with
  | add edge first second number =>
      rw [carryOut]
      refine Course.ensures_bind_of_ok (Course.perform_get stand) ?_
      by_cases up : stand.conductor.openEdges.contains edge = true
      · rw [if_pos up]
        exact Course.ensures_bind_of_error (Course.perform_throw _ _)
      rw [if_neg up]
      have canPlay : CanPlay registry past (.add edge first second number) := by
        rw [CanPlay, ← tracking.opened]
        exact Option.not_isSome_iff_eq_none.mp up
      refine Course.ensures_bind (ensures_resolvePair first second number) ?_
      rintro pair _ ⟨rfl, known⟩
      rw [tracking.registered] at known
      refine Course.ensures_bind (ensures_setLoss id pair Loss.up) fun _ set setting => ?_
      obtain ⟨sameConductor, session, link, held, found, heldNext⟩ := setting
      refine Course.ensures_bind_of_ok (Course.perform_modify _ _) ?_
      refine Course.ensures_of_ok (Course.perform_note _ _) ?_
      refine tracking.extend known canPlay held ?_ (fun other => ?_) heldNext
      · exact sameConductor ▸ tracking.registered
      · dsimp only
        rw [sameConductor, openPair?, known]
        split
        · rename_i same
          subst same
          rw [Table.get?_insert_self]
        · rename_i different
          rw [Table.get?_insert_of_ne _ _ (Ne.symm different), tracking.opened]
  | delete edge number =>
      rw [carryOut]
      refine Course.ensures_bind_of_ok (Course.perform_get stand) ?_
      rw [tracking.opened]
      cases up : openPair? registry edge past with
      | none => exact Course.ensures_of_error (Course.perform_throw _ _)
      | some pair =>
          refine Course.ensures_bind_of_ok (Course.perform_modify _ _) ?_
          refine Course.ensures_bind (ensures_setLoss id pair Loss.down) fun _ set setting => ?_
          obtain ⟨sameConductor, session, link, held, found, heldNext⟩ := setting
          refine Course.ensures_of_ok (Course.perform_note _ _) ?_
          refine tracking.extend up ⟨pair, up⟩ held ?_ (fun other => ?_) heldNext
          · exact sameConductor ▸ tracking.registered
          · dsimp only
            rw [sameConductor, openPair?]
            split
            · rename_i same
              subst same
              rw [Table.get?_erase_self]
            · rename_i different
              rw [Table.get?_erase_of_ne _ (Ne.symm different), tracking.opened]

theorem Tracking.ensures_forM_course (tracking : Tracking id registry [] stand)
    (parts : List Act) :
    (parts.forM (Act.course id)).Ensures stand fun _ =>
      Tracking id registry (parts.filterMap Act.line?).reverse :=
  Conductor.ensures_forM_course (fun _ _ _ alike now => now.alike alike)
    (fun _ _ _ now => ⟨now.registered, now.opened, now.tracked, now.played, now.held⟩)
    (fun _ _ step line now => now.ensures_carryOut step line) tracking parts

end CarryOut

/-! ## Points of a run -/

/-- The lines that a run has carried out after its first `count` acts. -/
def linesUpTo (document : Document) (settings : Settings) (count : Nat) : List EdgeLine :=
  ((acts 0 (chooseSteps settings document)).take count).filterMap Act.line?

section Points

variable {document : Document} {start stand : Stand} {id : SessionId} {count : Nat}

theorem bound_fresh (settings : Settings) : (fresh settings).registry.Bound := by
  intro name node
  constructor
  · nofun
  · nofun

/-- All points of a run are tracked with one registry. -/
theorem ComesTo.exists_tracking {settings : Settings} {rehearsal : Rehearsal}
    (comes : ComesTo document ⟨fresh settings, rehearsal⟩ count id stand) :
    ∃ registry, registry.Bound ∧
      ∀ earlier current, ComesTo document ⟨fresh settings, rehearsal⟩ earlier id current →
        Tracking id registry (linesUpTo document settings earlier).reverse current := by
  obtain ⟨prepared, ready, _⟩ := (comesTo_iff rfl).mp comes
  have bound := bound_fresh settings
  have closed : (fresh settings).openEdges = ∅ := rfl
  have laid := ensures_prepare bound closed document _ id prepared ready
  refine ⟨prepared.conductor.registry, laid.bound, fun earlier current comesEarlier => ?_⟩
  obtain ⟨other, otherReady, acted⟩ := (comesTo_iff rfl).mp comesEarlier
  rw [ready] at otherReady
  cases otherReady
  exact laid.tracking.ensures_forM_course _ () current acted

/-- Every beginning of the lines carried out up to a point has been carried out at some point. -/
theorem exists_linesUpTo {settings : Settings} {before after : List EdgeLine}
    (parted : linesUpTo document settings count = before ++ after) :
    ∃ earlier ≤ count, linesUpTo document settings earlier = before := by
  obtain ⟨first, second, whole, rfl, _⟩ := List.filterMap_eq_append_iff.mp parted
  have length := congrArg List.length whole
  rw [List.length_take, List.length_append] at length
  refine ⟨first.length, by omega, ?_⟩
  have beginning : (acts 0 (chooseSteps settings document)).take first.length = first := by
    have cut := congrArg (List.take first.length) whole
    rw [List.take_take, List.take_left, Nat.min_eq_left (by omega)] at cut
    exact cut
  rw [linesUpTo, beginning]

theorem exists_linesUpTo_append {settings : Settings} {earlier : Nat} (before : earlier ≤ count) :
    ∃ after, linesUpTo document settings count = linesUpTo document settings earlier ++ after := by
  refine ⟨((acts 0 (chooseSteps settings document)).take count |>.drop earlier).filterMap
    Act.line?, ?_⟩
  rw [linesUpTo, linesUpTo, ← List.filterMap_append]
  congr 1
  conv => lhs; rw [← List.take_append_drop earlier (List.take count _)]
  rw [List.take_take, Nat.min_eq_left before]

/-- Up to a point that a run comes to, its links agree with the open edges at all points exactly if
no line so far has severed two nodes that another edge joins. -/
theorem agrees_throughout_iff {settings : Settings} {conductor : Conductor} {rehearsal : Rehearsal}
    (accepted : Conductor.start settings = .ok conductor)
    (comes : ComesTo document ⟨conductor, rehearsal⟩ count id stand) :
    (∀ earlier ≤ count, ∀ current,
        ComesTo document ⟨conductor, rehearsal⟩ earlier id current → current.Agrees id) ↔
      NeverSevers (linesUpTo document settings count) := by
  obtain ⟨rfl, _⟩ := eq_fresh_of_start accepted
  obtain ⟨registry, bound, tracking⟩ := comes.exists_tracking
  have firmAtFirst : Firm registry [] := nofun
  have played := (tracking count stand comes).played
  rw [List.reverse_reverse] at played
  rw [NeverSevers, ← forall_firm_iff bound.faithful firmAtFirst played]
  constructor
  · intro agrees before after parted
    obtain ⟨earlier, within, same⟩ := exists_linesUpTo parted
    obtain ⟨current, comesEarlier⟩ := comes.earlier within
    have firm := (tracking earlier current comesEarlier).agrees_iff.mp
      (agrees earlier within current comesEarlier)
    rw [List.append_nil, ← same]
    exact firm
  · intro firm earlier within current comesEarlier
    obtain ⟨after, parted⟩ := exists_linesUpTo_append within
    rw [(tracking earlier current comesEarlier).agrees_iff]
    have firmThen := firm _ after parted
    rwa [List.append_nil] at firmThen

/-- A run of a playable document comes to all its points. -/
theorem exists_comesTo_of_playable {settings : Settings} {rehearsal : Rehearsal}
    (calm : rehearsal.Calm)
    (stocked : rehearsal.testbed.serviceFiles.contains (configName settings) = true)
    (small : settings.addressing.subnetCapacity.toNat ≤ 256)
    (few : document.nodes.length < UInt32.size - 2) (playable : document.Playable settings)
    (count : Nat) :
    ∃ id stand, ComesTo document ⟨fresh settings, rehearsal⟩ count id stand := by
  have decides := @decides_run settings ⟨fresh settings, rehearsal⟩ document calm rfl stocked
    small few
  obtain ⟨report, final, ended, -⟩ := decides.exists_ok playable
  have unspent : (fresh settings).isSpent = false := rfl
  have whole := @perform_run ⟨fresh settings, rehearsal⟩ unspent document
  exact exists_comesTo_of_ok unspent (whole.trans ended) count

end Points

/-- A step that adds two edges of the same nodes and then deletes the first of them. -/
def parallelEdges : Document where
  header := ⟨"g", 2, 5⟩
  nodes := ["a", "b"]
  steps := [⟨1, 6, [.add "e0" "a" "b" 7, .add "e1" "a" "b" 8, .delete "e0" 9]⟩]

theorem exists_comesTo_parallelEdges (count : Nat) :
    ∃ id stand, ComesTo parallelEdges ⟨fresh {}, Rehearsal.stocked⟩ count id stand := by
  have playable : parallelEdges.Playable {} := by
    refine ⟨by decide, by decide, ?_⟩
    simp [TakesTurns, Document.chosenLines, chooseSteps, parallelEdges]
  have few : parallelEdges.nodes.length < UInt32.size - 2 := show 2 < UInt32.size - 2 by decide
  exact exists_comesTo_of_playable ⟨rfl, rfl⟩ (by decide) (by decide) few playable count

theorem agrees_throughout_iff_parallelEdges :
    ∃ id stand, ComesTo parallelEdges ⟨fresh {}, Rehearsal.stocked⟩ 3 id stand ∧
      ∀ earlier ≤ 3, ∀ current,
        ComesTo parallelEdges ⟨fresh {}, Rehearsal.stocked⟩ earlier id current →
          current.Agrees id := by
  obtain ⟨id, stand, comes⟩ := exists_comesTo_parallelEdges 3
  have lines : linesUpTo parallelEdges {} 3 =
      [.add "e0" "a" "b" 7, .add "e1" "a" "b" 8] := rfl
  have accepted : start {} = .ok (fresh {}) := rfl
  refine ⟨id, stand, comes, (agrees_throughout_iff accepted comes).mpr ?_⟩
  rw [lines]
  exact ⟨nofun, nofun, trivial⟩

/-- When one of two parallel edges has been deleted, the other one is open and the link is down. -/
theorem exists_not_agrees :
    Document.read
        "DGS004\ng 2 5\nst 0\nan a\nan b\nst 1\nae e0 a b\nae e1 a b\nde e0\n" =
      .ok parallelEdges ∧
    ∃ id stand, ComesTo parallelEdges ⟨fresh {}, Rehearsal.stocked⟩ 4 id stand ∧
      ¬stand.Agrees id := by
  refine ⟨by decide +kernel, ?_⟩
  obtain ⟨id, stand, comes⟩ := exists_comesTo_parallelEdges 4
  obtain ⟨registry, bound, tracking⟩ := comes.exists_tracking
  have lines : linesUpTo parallelEdges {} 4 =
      [.add "e0" "a" "b" 7, .add "e1" "a" "b" 8, .delete "e0" 9] := rfl
  have tracked := tracking 4 stand comes
  rw [lines] at tracked
  refine ⟨id, stand, comes, fun agrees => ?_⟩
  obtain ⟨-, -, ⟨pair, opened⟩, -⟩ := tracked.played
  have known : registry.pair? "a" "b" = some pair := by simpa [openPair?] using opened
  have up := tracked.agrees_iff.mp agrees "e1" pair (by simp [openPair?, known])
  simp [lossAfter, changedPair?, openPair?, known, EdgeLine.loss, isUp_down] at up

end Conductor

end ContactReplay
