import ContactReplay.Proofs.Replay.Briefing
import ContactReplay.Proofs.Replay.Sequencing

/-!
# The protocol of a replay

A replay that succeeds leaves a log that its settings and its document determine: `protocol` is this
log, from the opening of the session to its end.  Each phase is followed by its own invariant
(`Peopled`, `Wired`, `Briefed`, and `Played` for the lines of the steps), and `Concluded` puts
them together.

Nothing is asked of the surroundings: a fault that is set but does not strike changes nothing.
-/

namespace ContactReplay

/-! ## Changes of links -/

/-- The pair of names whose link a line changes after past lines. -/
def EdgeLine.changedEnds? (past : List EdgeLine) : EdgeLine → Option (Pair String)
  | .add _ first second _ => some (.of first second)
  | .delete edge _ => openEnds? edge past

/-- The changes of links by some lines after past lines, newest first: the names of the nodes and
the loss.  There are none if a line deletes an edge that is not open. -/
def changes? (past : List EdgeLine) : List EdgeLine → Option (List (Pair String × Loss))
  | [] => some []
  | line :: rest =>
      match line.changedEnds? past, changes? (line :: past) rest with
      | some ends, some later => some ((ends, line.loss) :: later)
      | _, _ => none

theorem changes?_append_singleton {past lines : List EdgeLine} {line : EdgeLine}
    {changes : List (Pair String × Loss)} {ends : Pair String}
    (before : changes? past lines = some changes)
    (changed : line.changedEnds? (lines.reverse ++ past) = some ends) :
    changes? past (lines ++ [line]) = some (changes ++ [(ends, line.loss)]) := by
  induction lines generalizing past changes with
  | nil =>
      obtain rfl := Option.some.inj before
      have now : line.changedEnds? past = some ends := changed
      rw [List.nil_append, changes?, now]
      rfl
  | cons first rest inductionHypothesis =>
      rw [changes?] at before
      cases firstChanged : first.changedEnds? past with
      | none =>
          rw [firstChanged] at before
          cases before
      | some firstEnds =>
          cases restChanged : changes? (first :: past) rest with
          | none =>
              rw [firstChanged, restChanged] at before
              cases before
          | some later =>
              rw [firstChanged, restChanged] at before
              obtain rfl := Option.some.inj before
              rw [List.reverse_cons, List.append_assoc] at changed
              rw [List.cons_append, changes?, firstChanged,
                inductionHypothesis restChanged changed]
              rfl

/-- The adjustment that sets the loss of the link of one of some pairs. -/
def AddressPlan.adjustment (plan : AddressPlan) (pairs : List (Pair NodeId)) (pair : Pair NodeId)
    (loss : Loss) : LinkAdjustment :=
  ⟨pair.low, pair.high, (plan.allotment pairs pair).low.id, (plan.allotment pairs pair).high.id,
    loss⟩

namespace Conductor

open Course

/-- What is logged when the link of two nodes is changed. -/
def changeCall (settings : Settings) (roster : Roster) (pairs : List (Pair NodeId))
    (session : SessionId) (change : Pair String × Loss) : Call :=
  .adjustLink session (settings.addressing.adjustment pairs (roster.pair change.1) change.2)

/-- All that a replay logs: it opens a session, adds the nodes that take part, adds their links,
writes their configurations, starts the session, changes links and tears the session down. -/
def protocol (settings : Settings) (document : Document) (template : String)
    (changes : List (Pair String × Loss)) (session : SessionId) : List Call :=
  let roster := Roster.ofDocument settings document
  let pairs := roster.pairs (document.chosenLines settings)
  openingCalls settings session ++ roster.additions settings session ++
    (settings.addressing.links pairs).map (.addLink session) ++
    configCalls settings template session roster pairs roster.names ++
    [.setMode session .instantiation] ++ changes.map (changeCall settings roster pairs session) ++
    [.teardown session]

/-! ## Playing -/

/-- Some lines have been carried out, after the calls of a log. -/
structure Played (chosen : Settings) (files : Table FileName String) (log : List Call)
    (id : SessionId) (roster : Roster) (pairs : List (Pair NodeId))
    (nodes : Table NodeId SessionNode) (lines : List EdgeLine) (stand : Stand) : Prop where
  enrolled : roster.Enrols stand.conductor.registry
  allots : stand.conductor.addresses.Allots chosen.addressing pairs
  opened : ∀ edge, stand.conductor.openEdges.get? edge =
    (openEnds? edge lines.reverse).map roster.pair
  logged : ∃ session changes, changes? [] lines = some changes ∧
    stand.rehearsal.Logged files (log ++ changes.map (changeCall chosen roster pairs id)) id
      session ∧
    session.nodes = nodes

section Play

variable {chosen : Settings} {files : Table FileName String} {template : String}
  {log calls : List Call} {id : SessionId} {roster : Roster} {pairs : List (Pair NodeId)}
  {nodes : Table NodeId SessionNode} {lines : List EdgeLine} {stand next : Stand}
  {session : Session}

/-- The link of a pair can only be changed if it has been added. -/
theorem ensures_setLoss_logged {rehearsal : Rehearsal}
    (logged : rehearsal.Logged files calls id session) (conductor : Conductor)
    (allots : conductor.addresses.Allots chosen.addressing pairs) (pair : Pair NodeId)
    (loss : Loss) :
    (setLoss id pair loss).Ensures ⟨conductor, rehearsal⟩ fun _ next =>
      next.conductor = conductor ∧ ∃ later, next.rehearsal.Logged files
        (calls ++ [.adjustLink id (chosen.addressing.adjustment pairs pair loss)]) id later ∧
        later.nodes = session.nodes := by
  rw [setLoss]
  refine ensures_bind_of_ok (perform_get _) ?_
  dsimp only
  rw [allots.allotments]
  by_cases member : pair ∈ pairs
  · rw [if_pos member]
    exact logged.ensures_sparing conductor rfl
  · rw [if_neg member]
    exact ensures_of_error (perform_throw _ _)

theorem Played.alike (played : Played chosen files log id roster pairs nodes lines stand)
    (alike : Alike stand next) : Played chosen files log id roster pairs nodes lines next where
  enrolled := alike.conductor ▸ played.enrolled
  allots := alike.conductor ▸ played.allots
  opened := alike.conductor ▸ played.opened
  logged := by
    obtain ⟨session, changes, changed, logged, same⟩ := played.logged
    exact ⟨session, changes, changed, logged.alike alike, same⟩

theorem Played.reach (played : Played chosen files log id roster pairs nodes lines stand)
    (phase : Phase) : Played chosen files log id roster pairs nodes lines
      { stand with conductor := { stand.conductor with phase } } :=
  ⟨played.enrolled, played.allots, played.opened, played.logged⟩

/-- The link of the nodes of a line has been changed. -/
theorem exists_logged_changes {changes : List (Pair String × Loss)}
    (before : changes? [] lines = some changes) (line : EdgeLine) {ends : Pair String}
    (changed : line.changedEnds? lines.reverse = some ends)
    (logged : next.rehearsal.Logged files (log ++ changes.map (changeCall chosen roster pairs id) ++
      [changeCall chosen roster pairs id (ends, line.loss)]) id session)
    (same : session.nodes = nodes) :
    ∃ session changes, changes? [] (lines ++ [line]) = some changes ∧
      next.rehearsal.Logged files (log ++ changes.map (changeCall chosen roster pairs id)) id
        session ∧
      session.nodes = nodes := by
  have changedNow : line.changedEnds? (lines.reverse ++ []) = some ends := by
    rwa [List.append_nil]
  refine ⟨session, _, changes?_append_singleton before changedNow, ?_, same⟩
  rwa [List.map_append, ← List.append_assoc]

/-- A line that has been carried out has changed the link of its nodes. -/
theorem Played.ensures_carryOut (played : Played chosen files log id roster pairs nodes lines stand)
    (step : UInt64) (line : EdgeLine) :
    (carryOut id step line).Ensures stand fun _ =>
      Played chosen files log id roster pairs nodes (lines ++ [line]) := by
  obtain ⟨session, changes, changed, logged, same⟩ := played.logged
  cases line with
  | add edge first second number =>
      rw [carryOut]
      refine ensures_bind_of_ok (perform_get stand) ?_
      by_cases up : stand.conductor.openEdges.contains edge = true
      · rw [if_pos up]
        exact ensures_bind_of_error (perform_throw _ _)
      rw [if_neg up]
      refine ensures_bind (ensures_resolvePair first second number) ?_
      rintro pair _ ⟨rfl, resolved⟩
      obtain ⟨-, -, rfl⟩ := played.enrolled.pair?_eq_some_iff.mp resolved
      refine ensures_bind (ensures_setLoss_logged logged _ played.allots _ Loss.up) ?_
      rintro _ ⟨_, set⟩ ⟨rfl, later, loggedLater, sameLater⟩
      refine ensures_bind_of_ok (perform_modify _ _) ?_
      refine ensures_of_ok (perform_note _ _) ?_
      refine ⟨played.enrolled, played.allots, fun other => ?_, ?_⟩
      · rw [List.reverse_concat, openEnds?]
        dsimp only
        by_cases sameEdge : edge = other
        · subst sameEdge
          rw [if_pos rfl, Table.get?_insert_self, Option.map_some]
        · rw [if_neg sameEdge, Table.get?_insert_of_ne _ _ (Ne.symm sameEdge), played.opened]
      · exact exists_logged_changes changed (.add edge first second number) rfl loggedLater
          (sameLater.trans same)
  | delete edge number =>
      rw [carryOut]
      refine ensures_bind_of_ok (perform_get stand) ?_
      rw [played.opened]
      cases up : openEnds? edge lines.reverse with
      | none => exact ensures_of_error (perform_throw _ _)
      | some ends =>
          refine ensures_bind_of_ok (perform_modify _ _) ?_
          have sets := ensures_setLoss_logged logged
            { stand.conductor with openEdges := stand.conductor.openEdges.erase edge }
            played.allots (roster.pair ends) Loss.down
          refine ensures_bind sets ?_
          rintro _ ⟨_, set⟩ ⟨rfl, later, loggedLater, sameLater⟩
          refine ensures_of_ok (perform_note _ _) ?_
          refine ⟨played.enrolled, played.allots, fun other => ?_, ?_⟩
          · rw [List.reverse_concat, openEnds?]
            dsimp only
            by_cases sameEdge : edge = other
            · subst sameEdge
              rw [if_pos rfl, Table.get?_erase_self, Option.map_none]
            · rw [if_neg sameEdge, Table.get?_erase_of_ne _ (Ne.symm sameEdge), played.opened]
          · exact exists_logged_changes changed (.delete edge number) up loggedLater
              (sameLater.trans same)

theorem Played.ensures_acts
    (played : Played chosen files log id roster pairs nodes [] stand) (steps : List DocumentStep) :
    ((acts 0 steps).forM (Act.course id)).Ensures stand fun _ =>
      Played chosen files log id roster pairs nodes (steps.flatMap (·.lines)) := by
  have ensured := @ensures_forM_course id
    (fun past => Played chosen files log id roster pairs nodes past.reverse) stand
    (fun _ _ _ alike now => now.alike alike)
    (fun _ _ _ now => ⟨now.enrolled, now.allots, now.opened, now.logged⟩)
    (fun past _ step line now => by
      rw [List.reverse_cons]
      exact now.ensures_carryOut step line) played (acts 0 steps)
  rwa [List.reverse_reverse, filterMap_line?_acts] at ensured

end Play

/-! ## Whole runs -/

/-- What is known after a run that has succeeded. -/
structure Concluded (chosen : Settings) (document : Document) (files : Table FileName String)
    (template : String) (log : List Call) (id : SessionId) (stand : Stand) : Prop where
  enrolled : ∃ registry, (Roster.ofDocument chosen document).Enrols registry
  few : (Roster.ofDocument chosen document).first +
    (Roster.ofDocument chosen document).names.length < UInt32.size
  known : ∀ line ∈ document.chosenLines chosen, ∀ name ∈ line.endNames,
    name ∈ (Roster.ofDocument chosen document).names
  distinct : ((Roster.ofDocument chosen document).pairs (document.chosenLines chosen)).Nodup
  room : ((Roster.ofDocument chosen document).pairs (document.chosenLines chosen)).length ≤ 256
  logged : ∃ session changes, changes? [] (document.chosenLines chosen) = some changes ∧
    stand.rehearsal.Logged files (log ++ protocol chosen document template changes id) id
      session ∧
    session.Written files (configName chosen) (chosen.configText template
        ((Roster.ofDocument chosen document).pairs (document.chosenLines chosen)))
      ((Roster.ofDocument chosen document).names.map (Roster.ofDocument chosen document).node) ∧
    (chosen.controlNode.isSome = true → session.nodes.contains 1 = true)

/-- What a conductor has bound and given away after a run that has succeeded. -/
structure Versed (chosen : Settings) (document : Document) (conductor : Conductor) : Prop where
  few : (Roster.ofDocument chosen document).first +
    (Roster.ofDocument chosen document).names.length < UInt32.size
  known : ∀ line ∈ document.chosenLines chosen, ∀ name ∈ line.endNames,
    name ∈ (Roster.ofDocument chosen document).names
  enrolled : (Roster.ofDocument chosen document).Enrols conductor.registry
  allots : conductor.addresses.Allots chosen.addressing
    ((Roster.ofDocument chosen document).pairs (document.chosenLines chosen))

section Run

variable {chosen : Settings} {files : Table FileName String} {template : String}
  {log : List Call} {id : SessionId} {roster : Roster} {pairs : List (Pair NodeId)}
  {stand : Stand}

/-- Before a session is started there may be a prompt. -/
theorem ensures_launch_of_alike {after : Unit → Stand → Prop}
    (starts : ∀ current, Alike stand current →
      (Course.order id (.setMode .instantiation)).Ensures current after) :
    (launch id).Ensures stand after := by
  rw [launch]
  refine ensures_bind_of_ok (perform_get stand) ?_
  dsimp only
  split
  · exact ensures_bind (ensures_confirm _) fun _ confirmed alike => starts confirmed alike
  · exact starts stand ⟨rfl, rfl⟩

/-- A session that is started has the files that have been written, and no edge is open. -/
theorem Briefed.ensures_launch {done : List String}
    (briefed : Briefed chosen files template log id roster pairs done stand) :
    (launch id).Ensures stand fun _ next => ∃ session : Session,
      session.Written files (configName chosen) (chosen.configText template pairs)
        (done.map roster.node) ∧
      (chosen.controlNode.isSome = true → session.nodes.contains 1 = true) ∧
      Played chosen files (log ++ configCalls chosen template id roster pairs done ++
        [.setMode id .instantiation]) id roster pairs session.nodes [] next := by
  obtain ⟨session, logged, written, controlled⟩ := briefed.logged
  refine ensures_launch_of_alike fun current alike value next performed => ?_
  obtain ⟨sameConductor, later, loggedLater, nodes⟩ :=
    (logged.alike alike).ensures_sparing current.conductor rfl value next performed
  have same : next.conductor = stand.conductor := sameConductor.trans alike.conductor
  refine ⟨session, written, controlled, same ▸ briefed.enrolled, same ▸ briefed.allots, ?_, later,
    [], rfl, ?_, nodes⟩
  · intro edge
    rw [same, briefed.closed]
    rfl
  · exact (List.append_nil _).symm ▸ loggedLater

/-- The end of a run adds its line to the log. -/
theorem ensures_conclude_logged {calls : List Call} {session : Session} {rehearsal : Rehearsal}
    (logged : rehearsal.Logged files calls id session) (conductor : Conductor) :
    (conclude id).Ensures ⟨conductor, rehearsal⟩ fun _ next =>
      next.conductor = { conductor with phase := .terminal } ∧ ∃ later,
        next.rehearsal.Logged files (calls ++ [.teardown id]) id later ∧
          later.nodes = session.nodes := by
  rw [conclude]
  refine ensures_bind_of_ok (perform_reach _ _) ?_
  refine ensures_bind (logged.ensures_sparing _ rfl) ?_
  rintro _ next ⟨same, later, loggedLater, nodes⟩
  refine ensures_bind_of_ok (perform_get next) ?_
  exact ensures_of_ok (perform_pure _ _) ⟨same, later, loggedLater, nodes⟩

/-- A run that succeeds has followed the protocol. -/
theorem ensures_run {rehearsal : Rehearsal} (small : chosen.addressing.subnetCapacity.toNat ≤ 256)
    (told : ∀ text, rehearsal.testbed.serviceFiles.get? (configName chosen) = some text →
      text = template) (document : Document) :
    (run document).Ensures ⟨fresh chosen, rehearsal⟩ fun _ next =>
      Concluded chosen document rehearsal.testbed.serviceFiles template rehearsal.testbed.calls
        rehearsal.testbed.nextSession.next next ∧ Versed chosen document next.conductor := by
  have follows : (prepare document (chooseSteps chosen document) >>= fun session =>
      finish session 0 (chooseSteps chosen document)).Ensures ⟨fresh chosen, rehearsal⟩
        fun _ next => Concluded chosen document rehearsal.testbed.serviceFiles template
          rehearsal.testbed.calls rehearsal.testbed.nextSession.next next ∧
          Versed chosen document next.conductor := by
    simp only [prepare, bind_assoc, pure_bind]
    refine ensures_bind (ensures_populate_roster told document) ?_
    rintro _ populated ⟨rfl, peopled⟩
    refine ensures_bind_of_ok (perform_reach _ _) ?_
    refine ensures_bind (peopled.ensures_linkAll small _ _) fun _ linked wired => ?_
    have joined : ∀ name ∈ (Roster.ofDocument chosen document).names,
        name ∈ (document.chosenLines chosen).flatMap EdgeLine.endNames :=
      fun name member => takesPart_iff.mp (List.mem_filter.mp member).2
    have first : (Roster.ofDocument chosen document).first ≤ 2 := by
      rw [Roster.ofDocument]
      dsimp only
      split <;> decide
    have few := wired.few small first joined
    refine ensures_bind_of_ok (perform_reach _ _) ?_
    refine ensures_bind (wired.ensures_configureAll few _) fun _ configured briefed => ?_
    refine ensures_bind briefed.ensures_launch ?_
    rintro _ launched ⟨session, written, controlled, played⟩
    refine ensures_bind_of_ok (perform_reach _ _) ?_
    rw [finish_eq_bind]
    refine ensures_bind ((played.reach .running).ensures_acts _) fun _ finished playedAll => ?_
    obtain ⟨final, changes, changed, logged, nodes⟩ := playedAll.logged
    intro report next performed
    obtain ⟨sameConductor, later, loggedLater, laterNodes⟩ :=
      ensures_conclude_logged logged finished.conductor report next performed
    have sameNodes : later.nodes = session.nodes := laterNodes.trans nodes
    have versed : Versed chosen document next.conductor := by
      rw [sameConductor]
      exact ⟨few, wired.known, playedAll.enrolled, playedAll.allots⟩
    refine ⟨⟨⟨_, playedAll.enrolled⟩, few, wired.known, playedAll.allots.distinct,
      Nat.le_trans playedAll.allots.room small, later, changes, changed, ?_,
      written.of_nodes sameNodes, ?_⟩, versed⟩
    · simp only [protocol, ← List.append_assoc]
      exact loggedLater
    · rwa [sameNodes]
  intro report next performed
  rw [perform_run rfl] at performed
  exact follows report next performed

end Run

end Conductor

namespace Rehearsal

open Conductor

/-- What is known after a replay that has succeeded, if no other template could be fetched. -/
theorem concluded_and_versed_of_ok {settings : Settings} {conductor : Conductor}
    {rehearsal : Rehearsal} {document : Document} {template : String} {report : Report}
    (accepted : Conductor.start settings = .ok conductor)
    (told : ∀ text, rehearsal.testbed.serviceFiles.get? (configName settings) = some text →
      text = template)
    (succeeded : (rehearsal.replay conductor document).1 = .ok report) :
    Concluded settings document rehearsal.testbed.serviceFiles template rehearsal.testbed.calls
        rehearsal.testbed.nextSession.next
        ⟨(rehearsal.replay conductor document).2.1, (rehearsal.replay conductor document).2.2⟩ ∧
      Versed settings document (rehearsal.replay conductor document).2.1 := by
  obtain ⟨rfl, small⟩ := eq_fresh_of_start accepted
  refine ensures_run small told document report _ ?_
  have performed : (run document).perform ⟨fresh settings, rehearsal⟩ =
      ((rehearsal.replay (fresh settings) document).1,
        ⟨(rehearsal.replay (fresh settings) document).2.1,
          (rehearsal.replay (fresh settings) document).2.2⟩) := rfl
  rw [performed, succeeded]

theorem concluded_of_ok {settings : Settings} {conductor : Conductor} {rehearsal : Rehearsal}
    {document : Document} {template : String} {report : Report}
    (accepted : Conductor.start settings = .ok conductor)
    (stocked : rehearsal.testbed.serviceFiles.get? ⟨settings.service, settings.configFile⟩ =
      some template)
    (succeeded : (rehearsal.replay conductor document).1 = .ok report) :
    Concluded settings document rehearsal.testbed.serviceFiles template rehearsal.testbed.calls
      rehearsal.testbed.nextSession.next
      ⟨(rehearsal.replay conductor document).2.1, (rehearsal.replay conductor document).2.2⟩ :=
  (concluded_and_versed_of_ok accepted
    (fun _ held => Option.some.inj (held.symm.trans stocked)) succeeded).1

/-- A replay that succeeds has logged exactly its protocol: the identifiers of the nodes follow
each other in the order of declaration, every pair of nodes that some line joins is linked once, and
every line has changed one link. -/
theorem replay_protocol {settings : Settings} {conductor : Conductor} {rehearsal : Rehearsal}
    {document : Document} {template : String} {report : Report}
    (accepted : Conductor.start settings = .ok conductor)
    (stocked : rehearsal.testbed.serviceFiles.get? ⟨settings.service, settings.configFile⟩ =
      some template)
    (succeeded : (rehearsal.replay conductor document).1 = .ok report) :
    (∃ changes, changes? [] (document.chosenLines settings) = some changes ∧
      (rehearsal.replay conductor document).2.2.testbed.calls = rehearsal.testbed.calls ++
        protocol settings document template changes rehearsal.testbed.nextSession.next) ∧
    ((Roster.ofDocument settings document).names.map fun name =>
        ((Roster.ofDocument settings document).node name).toNat) =
      List.range' (Roster.ofDocument settings document).first
        (Roster.ofDocument settings document).names.length ∧
    ((Roster.ofDocument settings document).pairs (document.chosenLines settings)).Nodup ∧
    ∀ line ∈ document.chosenLines settings, ∀ name ∈ line.endNames,
      name ∈ (Roster.ofDocument settings document).names := by
  have concluded := concluded_of_ok accepted stocked succeeded
  obtain ⟨registry, enrols⟩ := concluded.enrolled
  obtain ⟨session, changes, changed, logged, -, -⟩ := concluded.logged
  exact ⟨⟨changes, changed, logged.calls⟩,
    Roster.map_toNat_node enrols.distinct concluded.few, concluded.distinct, concluded.known⟩

/-- An edge that is added and deleted, with a control node and a control network. -/
theorem replay_protocol_singleStep :
    ∃ changes, changes? [] [.add "e0" "b" "a" 9, .delete "e0" 10] = some changes ∧
      (stocked.replay (fresh { controlNode := some {}, controlNet := some "net" })
        (singleStep [.add "e0" "b" "a" 9, .delete "e0" 10])).2.2.testbed.calls =
          protocol { controlNode := some {}, controlNet := some "net" }
            (singleStep [.add "e0" "b" "a" 9, .delete "e0" 10]) "" changes 1 :=
  (@replay_protocol { controlNode := some {}, controlNet := some "net" } (fresh _) stocked
    (singleStep [.add "e0" "b" "a" 9, .delete "e0" 10]) "" ⟨2, 2, 1, 1, 1, 1⟩ rfl (by decide)
    (by decide +kernel)).1

end Rehearsal

end ContactReplay
