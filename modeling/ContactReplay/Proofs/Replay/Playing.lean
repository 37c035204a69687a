import ContactReplay.Proofs.Replay.Configuring

/-!
# Playing steps

While a replay runs, an edge that is up is remembered with its pair, and the last line that added or
deleted an edge of a pair has set the loss of its link.  `Playing` is this invariant, in terms of
the lines that have been carried out, newest first.  `decides_playSteps` says when all steps can be
played: no edge is added that is up, and none is deleted that is not.
-/

namespace ContactReplay

/-! ## Edges and losses after some lines -/

/-- The pair of an edge that is up after past lines. -/
def openPair? (registry : Registry) (edge : String) : List EdgeLine → Option (Pair NodeId)
  | [] => none
  | .add other first second _ :: earlier =>
      if other = edge then registry.pair? first second else openPair? registry edge earlier
  | .delete other _ :: earlier =>
      if other = edge then none else openPair? registry edge earlier

/-- The pair whose link a line changes after past lines. -/
def changedPair? (registry : Registry) (past : List EdgeLine) : EdgeLine → Option (Pair NodeId)
  | .add _ first second _ => registry.pair? first second
  | .delete edge _ => openPair? registry edge past

/-- The loss that a line sets. -/
def EdgeLine.loss : EdgeLine → Loss
  | .add .. => Loss.up
  | .delete .. => Loss.down

/-- The loss of the link of a pair after past lines. -/
def lossAfter (registry : Registry) (pair : Pair NodeId) : List EdgeLine → Loss
  | [] => Loss.down
  | line :: earlier =>
      if changedPair? registry earlier line = some pair then line.loss
      else lossAfter registry pair earlier

theorem mem_joinedPairs_of_openPair? {registry : Registry} {edge : String} {past : List EdgeLine}
    {pair : Pair NodeId} (opened : openPair? registry edge past = some pair) :
    pair ∈ joinedPairs registry past := by
  induction past with
  | nil => cases opened
  | cons line earlier inductionHypothesis =>
      have later : openPair? registry edge earlier = some pair →
          pair ∈ joinedPairs registry (line :: earlier) := by
        intro before
        rw [joinedPairs, List.mem_filterMap]
        obtain ⟨other, member, joins⟩ := List.mem_filterMap.mp (inductionHypothesis before)
        exact ⟨other, List.mem_cons_of_mem _ member, joins⟩
      cases line with
      | add other first second number =>
          rw [openPair?] at opened
          split at opened
          · exact List.mem_filterMap.mpr ⟨_, List.mem_cons_self, opened⟩
          · exact later opened
      | delete other number =>
          rw [openPair?] at opened
          split at opened
          · cases opened
          · exact later opened

namespace Conductor

/-- Playing has come as far as the lines `past`, newest first. -/
structure Playing (files : Table FileName String) (id : SessionId) (registry : Registry)
    (addresses : AddressBook) (past : List EdgeLine) (session : Session) (stand : Stand) :
    Prop where
  holds : stand.Holds files id session
  registered : stand.conductor.registry = registry
  booked : stand.conductor.addresses = addresses
  opened : ∀ edge, stand.conductor.openEdges.get? edge = openPair? registry edge past
  named : session.Named registry
  linked : Linked addresses session fun pair => lossAfter registry pair past
  allotted : ∀ pair ∈ joinedPairs registry past,
    ∃ allotment, addresses.get? pair = some allotment

/-- A line can be played: it adds an edge that is not up, or it deletes one that is. -/
def CanPlay (registry : Registry) (past : List EdgeLine) : EdgeLine → Prop
  | .add edge .. => openPair? registry edge past = none
  | .delete edge _ => ∃ pair, openPair? registry edge past = some pair

/-- A line whose nodes are known and have an allotment if it joins any. -/
def Prepared (registry : Registry) (addresses : AddressBook) (line : EdgeLine) : Prop :=
  Known registry line ∧ ∀ pair, line.pair? registry = some pair →
    ∃ allotment, addresses.get? pair = some allotment

/-! ## Single lines -/

section Line

variable {files : Table FileName String} {id : SessionId} {registry : Registry}
  {addresses : AddressBook} {past : List EdgeLine} {session : Session} {stand : Stand}

/-- The session with another loss of a link. -/
def withLoss (session : Session) (pair : Pair NodeId) (link : SessionLink) (loss : Loss) :
    Session :=
  { session with links := session.links.insert pair { link with loss } }

theorem Linked.adjust {before after : Pair NodeId → Loss} (linked : Linked addresses session before)
    {pair : Pair NodeId} {allotment : Allotment} (found : addresses.get? pair = some allotment)
    {link : SessionLink} (inSession : session.links.get? pair = some link) {loss : Loss}
    (changed : after pair = loss) (kept : ∀ other, other ≠ pair → after other = before other) :
    Linked addresses (withLoss session pair link loss) after where
  linked other given otherFound := by
    simp only [withLoss]
    by_cases same : other = pair
    · subst same
      obtain ⟨old, oldFound, first, second, -⟩ := linked.linked other given otherFound
      rw [inSession] at oldFound
      obtain rfl := Option.some.inj oldFound
      exact ⟨_, Table.get?_insert_self _ _ _, first, second, changed.symm⟩
    · rw [Table.get?_insert_of_ne _ _ same, kept other same]
      exact linked.linked other given otherFound
  unlinked other missing := by
    simp only [withLoss]
    have different : other ≠ pair := by
      rintro rfl
      rw [found] at missing
      cases missing
    rw [Table.get?_insert_of_ne _ _ different]
    exact linked.unlinked other missing

theorem carryOut_adjustLink {pair : Pair NodeId} {link : SessionLink}
    (held : session.links.get? pair = some link) {low high : InterfaceId}
    (first : link.description.firstInterface.id = low)
    (second : link.description.secondInterface.id = high) (loss : Loss) :
    session.carryOut files (.adjustLink ⟨pair.low, pair.high, low, high, loss⟩) =
      .ok ((), withLoss session pair link loss) := by
  have same : Pair.of pair.low pair.high = pair := Pair.of_low_high pair
  have matching : ¬ (link.description.firstInterface.id ≠ low ∨
      link.description.secondInterface.id ≠ high) := by
    rw [first, second]
    simp
  simp only [Session.carryOut, Session.adjustLink, LinkAdjustment.pair, same, held, matching,
    if_false]
  rfl

/-- The loss of the link of a pair with an allotment is set. -/
theorem perform_setLoss {before : Pair NodeId → Loss} (holds : stand.Holds files id session)
    (linked : Linked stand.conductor.addresses session before) {pair : Pair NodeId}
    {allotment : Allotment} (found : stand.conductor.addresses.get? pair = some allotment)
    (loss : Loss) :
    ∃ rehearsal link, session.links.get? pair = some link ∧
      (setLoss id pair loss).perform stand = (.ok (), ⟨stand.conductor, rehearsal⟩) ∧
      Stand.Holds ⟨stand.conductor, rehearsal⟩ files id (withLoss session pair link loss) := by
  obtain ⟨link, inSession, first, second, -⟩ := linked.linked pair allotment found
  have adjusted : session.carryOut files (.adjustLink
        ⟨pair.low, pair.high, allotment.low.id, allotment.high.id, loss⟩) =
      .ok ((), withLoss session pair link loss) := carryOut_adjustLink inSession first second loss
  obtain ⟨afterAdjusting, adjustedOk, holdsAdjusted⟩ := holds.perform_order adjusted holds.usable
  refine ⟨afterAdjusting, link, inSession, ?_, holdsAdjusted⟩
  rw [setLoss, Course.perform_bind_ok (Course.perform_get stand), found]
  exact adjustedOk

theorem Playing.play (playing : Playing files id registry addresses past session stand)
    {line : EdgeLine} (prepared : Prepared registry addresses line) {pair : Pair NodeId}
    (changed : changedPair? registry past line = some pair) {allotment : Allotment}
    (found : addresses.get? pair = some allotment) {link : SessionLink}
    (inSession : session.links.get? pair = some link) {next : Stand}
    (holds : next.Holds files id (withLoss session pair link line.loss))
    (registered : next.conductor.registry = stand.conductor.registry)
    (booked : next.conductor.addresses = stand.conductor.addresses)
    (opened : ∀ edge, next.conductor.openEdges.get? edge =
      openPair? registry edge (line :: past)) :
    Playing files id registry addresses (line :: past) (withLoss session pair link line.loss)
      next where
  holds := holds
  registered := registered.trans playing.registered
  booked := booked.trans playing.booked
  opened := opened
  named := playing.named
  linked := by
    apply playing.linked.adjust found inSession (if_pos changed)
    intro other different
    rw [lossAfter, if_neg]
    rw [changed]
    exact fun same => different (Option.some.inj same).symm
  allotted other member := by
    rw [joinedPairs, List.mem_filterMap] at member
    obtain ⟨source, sourceMember, joins⟩ := member
    rcases List.mem_cons.mp sourceMember with rfl | earlier
    · exact prepared.2 other joins
    · exact playing.allotted other (List.mem_filterMap.mpr ⟨source, earlier, joins⟩)

/-- A prepared line is carried out if it can be played. -/
theorem Playing.decides_carryOut
    (playing : Playing files id registry addresses past session stand) {line : EdgeLine}
    (prepared : Prepared registry addresses line) (step : UInt64) :
    Course.Decides (carryOut id step line) stand (CanPlay registry past line) fun _ next =>
      ∃ played, Playing files id registry addresses (line :: past) played next := by
  cases line with
  | add edge first second number =>
      rw [carryOut]
      apply Course.decides_bind_of_ok (Course.perform_get stand)
      cases up : openPair? registry edge past with
      | some other =>
          have contained : stand.conductor.openEdges.contains edge = true := by
            rw [Table.contains, playing.opened, up]
            rfl
          rw [if_pos contained]
          apply Course.decides_bind_of_error (Course.perform_throw _ _)
          intro possible
          rw [CanPlay, up] at possible
          cases possible
      | none =>
          have absent : ¬ stand.conductor.openEdges.contains edge = true := by
            rw [Table.contains, playing.opened, up]
            exact Bool.false_ne_true
          rw [if_neg absent]
          obtain ⟨pair, known⟩ := prepared.1
          obtain ⟨allotment, found⟩ := prepared.2 pair known
          have resolved := known
          rw [← playing.registered] at resolved
          apply Course.decides_bind_of_ok (perform_resolvePair_of_some resolved number)
          have booked := playing.booked
          subst booked
          obtain ⟨afterSetting, link, inSession, setOk, holdsSet⟩ :=
            perform_setLoss playing.holds playing.linked found Loss.up
          apply Course.decides_bind_of_ok setOk
          apply Course.decides_bind_of_ok (Course.perform_modify _ _)
          refine Course.decides_of_ok (Course.perform_note _ _) up
            ⟨withLoss session pair link Loss.up, ?_⟩
          refine playing.play prepared known found inSession (holdsSet.conducted _) rfl rfl ?_
          intro other
          dsimp only
          rw [openPair?, known]
          split
          · rename_i same
            subst same
            rw [Table.get?_insert_self]
          · rename_i different
            rw [Table.get?_insert_of_ne _ _ (Ne.symm different), playing.opened]
  | delete edge number =>
      rw [carryOut]
      apply Course.decides_bind_of_ok (Course.perform_get stand)
      rw [playing.opened]
      cases up : openPair? registry edge past with
      | none =>
          apply Course.decides_of_error (Course.perform_throw _ _)
          rintro ⟨pair, same⟩
          rw [up] at same
          cases same
      | some pair =>
          obtain ⟨allotment, found⟩ :=
            playing.allotted pair (mem_joinedPairs_of_openPair? up)
          apply Course.decides_bind_of_ok (Course.perform_modify _ _)
          have booked := playing.booked
          subst booked
          obtain ⟨afterSetting, link, inSession, setOk, holdsSet⟩ :=
            perform_setLoss (playing.holds.conducted
              { stand.conductor with openEdges := stand.conductor.openEdges.erase edge })
              playing.linked found Loss.down
          apply Course.decides_bind_of_ok setOk
          refine Course.decides_of_ok (Course.perform_note _ _) ⟨pair, up⟩
            ⟨withLoss session pair link Loss.down, ?_⟩
          refine playing.play prepared up found inSession (holdsSet.conducted _) rfl rfl ?_
          intro other
          dsimp only
          rw [openPair?]
          split
          · rename_i same
            subst same
            rw [Table.get?_erase_self]
          · rename_i different
            rw [Table.get?_erase_of_ne _ (Ne.symm different), playing.opened]

/-! ## Steps -/

theorem Playing.hear (playing : Playing files id registry addresses past session stand)
    (question : Ask) :
    Playing files id registry addresses past session
      ⟨stand.conductor, stand.rehearsal.hear question⟩ :=
  ⟨playing.holds.hear _ question, playing.registered, playing.booked, playing.opened,
    playing.named, playing.linked, playing.allotted⟩

theorem Playing.note (playing : Playing files id registry addresses past session stand)
    (report : Report) :
    Playing files id registry addresses past session
      { stand with conductor := { stand.conductor with report } } :=
  ⟨playing.holds.conducted _, playing.registered, playing.booked, playing.opened,
    playing.named, playing.linked, playing.allotted⟩

theorem Playing.decides_playLines
    (playing : Playing files id registry addresses past session stand) (step : UInt64)
    {lines : List EdgeLine} (prepared : ∀ line ∈ lines, Prepared registry addresses line) :
    Course.Decides (lines.forM (carryOutUnlessCancelled id step)) stand
      (Succession (CanPlay registry) past lines) fun _ next => ∃ played,
        Playing files id registry addresses (lines.reverse ++ past) played next := by
  refine @Course.decides_forM_after EdgeLine lines (carryOutUnlessCancelled id step)
    (CanPlay registry)
    (fun before next => ∃ played, Playing files id registry addresses before played next) past ?_
    stand ⟨session, playing⟩
  rintro before line rest - member current ⟨played, playingNow⟩
  rw [carryOutUnlessCancelled]
  refine Course.decides_bind_of_ok
    (Course.perform_stopIfCancelled playingNow.holds.calm step) ?_
  exact (playingNow.hear _).decides_carryOut (prepared line member) step

theorem Playing.decides_playStep
    (playing : Playing files id registry addresses past session stand) (last : UInt64)
    {moment : DocumentStep} (prepared : ∀ line ∈ moment.lines, Prepared registry addresses line) :
    Course.Decides (playStep id last moment) stand
      (Succession (CanPlay registry) past moment.lines) fun _ next => ∃ played,
        Playing files id registry addresses (moment.lines.reverse ++ past) played next := by
  have lines : ∀ current, Playing files id registry addresses past session current →
      Course.Decides (do
          Course.pause (stand.conductor.settings.delay (moment.step - last))
          moment.lines.forM (carryOutUnlessCancelled id moment.step)
          Course.note fun report => { report with stepsRun := report.stepsRun + 1 })
        current (Succession (CanPlay registry) past moment.lines) fun _ next => ∃ played,
          Playing files id registry addresses (moment.lines.reverse ++ past) played next := by
    intro current now
    apply Course.decides_bind_of_ok (Course.perform_pause now.holds.calm _)
    refine (Course.decides_bind ((now.hear _).decides_playLines moment.step prepared)
      fun _ _ next ⟨played, playingNext⟩ => ?_).congr (iff_of_eq (and_true _))
    exact Course.decides_of_ok (Course.perform_note _ _) trivial ⟨played, playingNext.note _⟩
  rw [playStep]
  apply Course.decides_bind_of_ok (Course.perform_stopIfCancelled playing.holds.calm _)
  apply Course.decides_bind_of_ok (Course.perform_get _)
  have now := playing.hear .isCancelled
  dsimp only
  split
  · apply Course.decides_bind_of_ok (Course.perform_confirm now.holds.calm _)
    exact lines _ (now.hear _)
  · exact lines _ now

/-- Steps are played if all their lines can be played one after the other. -/
theorem Playing.decides_playSteps
    (playing : Playing files id registry addresses past session stand) (last : UInt64)
    {steps : List DocumentStep}
    (prepared : ∀ line ∈ steps.flatMap (·.lines), Prepared registry addresses line) :
    Course.Decides (playSteps id last steps) stand
      (Succession (CanPlay registry) past (steps.flatMap (·.lines))) fun _ next => ∃ played,
        Playing files id registry addresses ((steps.flatMap (·.lines)).reverse ++ past) played
          next := by
  induction steps generalizing last past session stand with
  | nil => exact Course.decides_of_ok rfl trivial ⟨session, playing⟩
  | cons moment rest inductionHypothesis =>
      rw [List.flatMap_cons, List.forall_mem_append] at prepared
      rw [List.flatMap_cons, List.reverse_append, List.append_assoc, playSteps]
      refine (Course.decides_bind (playing.decides_playStep last prepared.1)
        fun _ _ next ⟨played, playingNext⟩ => ?_).congr (succession_append _ _ _).symm
      exact inductionHypothesis playingNext moment.step prepared.2

end Line

end Conductor

end ContactReplay
