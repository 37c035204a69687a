import ContactReplay.Proofs.GraphStream.Transcript

/-!
# What is written of a timeline

A scribe remembers of the past events just the number of additions and the number of the edge that
keeps each pair connected (`Scribe.Follows`).  So it writes every event that can follow, with the
words of the transcript, and refuses every other one.  `manuscript_of_writable` puts the lines of a
whole timeline together, and `writable_of_graphText` says that a timeline has to be writable to have
a text.
-/

namespace ContactReplay

namespace GraphStream

/-- The line with given words. -/
def lineText (words : List String) : String :=
  String.ofList (Text.sentence (words.map String.toList))

@[simp]
theorem toList_lineText (words : List String) :
    (lineText words).toList = Text.sentence (words.map String.toList) :=
  String.toList_ofList

/-- The text of lines with given words. -/
def joinLines (lines : List (List String)) : String :=
  String.join (lines.map fun words => lineText words ++ "\n")

/-! ## The wording of lines -/

section Wording

theorem toString_string (text : String) : toString text = text := rfl

theorem toString_action (action : Action) : toString action = action.word := rfl

theorem toString_name (name : NodeName) : toString name = name.label := rfl

theorem toString_word32 (value : UInt32) : toString value = toString value.toNat := rfl

theorem toList_space : " ".toList = [' '] := rfl

theorem toList_spaceEdge : " e".toList = [' ', 'e'] := rfl

theorem toList_edge : "e".toList = ['e'] := rfl

theorem additionLine_eq (edge : UInt32) (low high : NodeName) :
    s!"{Action.addEdge} e{edge} {low} {high}" =
      lineText [Action.addEdge.word, edgeName edge.toNat, low.label, high.label] := by
  apply String.toList_inj.mp
  simp only [toList_lineText, Text.sentence, edgeName, toString_string, toString_action,
    toString_name, toString_word32, String.toList_append, List.map_cons, List.map_nil,
    toList_space, toList_spaceEdge, toList_edge, List.append_assoc, List.cons_append,
    List.nil_append]

theorem deletionLine_eq (edge : UInt32) :
    s!"{Action.deleteEdge} e{edge}" = lineText [Action.deleteEdge.word, edgeName edge.toNat] := by
  apply String.toList_inj.mp
  simp only [toList_lineText, Text.sentence, edgeName, toString_string, toString_action,
    toString_word32, String.toList_append, List.map_cons, List.map_nil, toList_spaceEdge,
    toList_edge, List.append_assoc, List.cons_append, List.nil_append]

theorem stepLine_eq (step : UInt64) : s!"{Action.step} {step}" = lineText (stepWords step) := by
  apply String.toList_inj.mp
  simp only [toList_lineText, stepWords, Text.sentence, toString_string, toString_action,
    String.toList_append, List.map_cons, List.map_nil, toList_space, List.append_assoc,
    List.cons_append, List.nil_append]

theorem headerLine_eq (graphName : String) (steps events : Nat) :
    s!"{graphName} {steps} {events}" = lineText [graphName, toString steps, toString events] := by
  apply String.toList_inj.mp
  simp only [toList_lineText, Text.sentence, toString_string, String.toList_append, List.map_cons,
    List.map_nil, toList_space, List.append_assoc, List.cons_append, List.nil_append]

theorem nodeLine_eq (node : NodeName) :
    s!"{Action.addNode} {node}" = lineText [Action.addNode.word, node.label] := by
  apply String.toList_inj.mp
  simp only [toList_lineText, Text.sentence, toString_string, toString_action, toString_name,
    String.toList_append, List.map_cons, List.map_nil, toList_space, List.append_assoc,
    List.cons_append, List.nil_append]

end Wording

namespace Scribe

/-- A scribe remembers past events. -/
structure Follows (scribe : Scribe) (past : List Event) : Prop where
  edges : scribe.edges.next.toNat = additions past
  opened : ∀ pair, (scribe.opened.get? pair).map (·.toNat) = openNumber? pair past

theorem follows_nil (offset : UInt64) : Follows { offset } [] where
  edges := rfl
  opened _ := rfl

/-! ## Single events -/

section Event

variable {scribe : Scribe} {past : List Event}

theorem Follows.get?_eq_none (follows : scribe.Follows past) {pair : Pair NodeName}
    (apart : openNumber? pair past = none) : scribe.opened.get? pair = none := by
  rw [← follows.opened] at apart
  exact Option.map_eq_none_iff.mp apart

theorem Follows.get?_eq_some (follows : scribe.Follows past) {pair : Pair NodeName} {number : Nat}
    (connected : openNumber? pair past = some number) :
    ∃ edge : UInt32, scribe.opened.get? pair = some edge ∧ edge.toNat = number := by
  rw [← follows.opened] at connected
  exact Option.map_eq_some_iff.mp connected

theorem Follows.add (follows : scribe.Follows past) (few : additions past + 1 < UInt32.size)
    (pair : Pair NodeName) :
    Follows { scribe with
      edges := scribe.edges.advance
      opened := scribe.opened.insert pair scribe.edges.next } (⟨.add, pair⟩ :: past) where
  edges := by
    rw [additions_cons, if_pos rfl]
    dsimp only
    rw [← follows.edges] at few ⊢
    exact Counter.toNat_advance few
  opened other := by
    dsimp only
    by_cases same : other = pair
    · subst same
      rw [Table.get?_insert_self, openNumber?_cons_add, Option.map_some, follows.edges]
    · rw [Table.get?_insert_of_ne _ _ same, follows.opened,
        openNumber?_cons_of_ne (Ne.symm same)]

theorem Follows.delete (follows : scribe.Follows past) (pair : Pair NodeName) :
    Follows { scribe with opened := scribe.opened.erase pair } (⟨.delete, pair⟩ :: past) where
  edges := by
    rw [additions_cons, if_neg (by simp), Nat.add_zero]
    exact follows.edges
  opened other := by
    dsimp only
    by_cases same : other = pair
    · subst same
      rw [Table.get?_erase_self, openNumber?_cons_delete, Option.map_none]
    · rw [Table.get?_erase_of_ne _ same, follows.opened, openNumber?_cons_of_ne (Ne.symm same)]

/-- An event that can follow is written with the words of its transcript. -/
theorem writeEvent_of_canFollow (follows : scribe.Follows past) {event : Event}
    (few : additions (event :: past) < UInt32.size) (possible : CanFollow past event) :
    ∃ next, scribe.writeEvent event = .ok (lineText (wordsOf past event), next) ∧
      next.Follows (event :: past) ∧ next.offset = scribe.offset := by
  obtain ⟨change, pair⟩ := event
  cases change with
  | add =>
      have apart := follows.get?_eq_none possible
      refine ⟨_, ?_, follows.add (by simpa using few) pair, rfl⟩
      rw [writeEvent]
      dsimp only at apart ⊢
      rw [apart]
      dsimp only
      rw [additionLine_eq, follows.edges]
      rfl
  | delete =>
      obtain ⟨number, connected⟩ := possible
      obtain ⟨edge, known, same⟩ := follows.get?_eq_some connected
      refine ⟨_, ?_, follows.delete pair, rfl⟩
      rw [writeEvent, wordsOf, edgeOf, connected]
      dsimp only at known ⊢
      rw [known]
      dsimp only
      rw [deletionLine_eq, same]
      rfl

theorem canFollow_of_writeEvent (follows : scribe.Follows past) {event : Event}
    {written : String × Scribe} (done : scribe.writeEvent event = .ok written) :
    CanFollow past event := by
  rw [CanFollow, ← follows.opened]
  rw [writeEvent] at done
  dsimp only at done
  split at done
  · cases done
  · rename_i change apart
    rw [change, apart]
    rfl
  · rename_i edge change connected
    rw [change, connected]
    exact ⟨edge.toNat, rfl⟩
  · cases done

end Event

/-! ## Lists of entries -/

theorem writeEntries_cons_ok {scribe next : Scribe} {entry : Entry} {line : String}
    (written : scribe.writeEntry entry = .ok (line, next)) (rest : List Entry) :
    scribe.writeEntries (entry :: rest) =
      (line :: (next.writeEntries rest).1, (next.writeEntries rest).2) := by
  rw [writeEntries, written]

theorem exists_of_writeEntries_cons {scribe final : Scribe} {entry : Entry} {rest : List Entry}
    (done : (scribe.writeEntries (entry :: rest)).2 = .ok final) :
    ∃ line next, scribe.writeEntry entry = .ok (line, next) ∧
      (next.writeEntries rest).2 = .ok final := by
  rw [writeEntries] at done
  split at done
  · cases done
  · rename_i line next written
    exact ⟨line, next, written, done⟩

theorem writeEntries_append_ok {scribe next : Scribe} {first : List Entry} {lines : List String}
    (written : scribe.writeEntries first = (lines, .ok next)) (second : List Entry) :
    scribe.writeEntries (first ++ second) =
      (lines ++ (next.writeEntries second).1, (next.writeEntries second).2) := by
  induction first generalizing scribe lines with
  | nil =>
      obtain ⟨rfl, same⟩ := Prod.mk.inj written
      obtain rfl := Except.ok.inj same
      rfl
  | cons entry rest inductionHypothesis =>
      obtain ⟨line, middle, entryWritten, restDone⟩ :=
        exists_of_writeEntries_cons (congrArg Prod.snd written)
      rw [writeEntries_cons_ok entryWritten] at written
      obtain ⟨rfl, -⟩ := Prod.mk.inj written
      have restWritten : middle.writeEntries rest = ((middle.writeEntries rest).1, .ok next) :=
        Prod.ext rfl restDone
      rw [List.cons_append, writeEntries_cons_ok entryWritten, inductionHypothesis restWritten,
        List.cons_append]

theorem exists_of_writeEntries_append {scribe final : Scribe} {first second : List Entry}
    (done : (scribe.writeEntries (first ++ second)).2 = .ok final) :
    ∃ lines next, scribe.writeEntries first = (lines, .ok next) ∧
      (next.writeEntries second).2 = .ok final := by
  induction first generalizing scribe with
  | nil => exact ⟨[], scribe, rfl, done⟩
  | cons entry rest inductionHypothesis =>
      obtain ⟨line, middle, entryWritten, restDone⟩ := exists_of_writeEntries_cons done
      obtain ⟨lines, next, restWritten, secondDone⟩ := inductionHypothesis restDone
      refine ⟨line :: lines, next, ?_, secondDone⟩
      rw [writeEntries_cons_ok entryWritten, restWritten]

/-- Events that can follow one another are written with the words of their transcript. -/
theorem writeEvents_of_alternates {scribe : Scribe} {past events : List Event}
    (follows : scribe.Follows past) (few : additions (events.reverse ++ past) < UInt32.size)
    (alternates : Alternates past events) :
    ∃ next, scribe.writeEntries (events.map .event) =
        ((eventWords past events).map lineText, .ok next) ∧
      next.Follows (events.reverse ++ past) ∧ next.offset = scribe.offset := by
  induction events generalizing scribe past with
  | nil => exact ⟨scribe, rfl, follows, rfl⟩
  | cons event rest inductionHypothesis =>
      have regroup : (event :: rest).reverse ++ past = rest.reverse ++ event :: past := by simp
      rw [regroup] at few ⊢
      have fewNow : additions (event :: past) < UInt32.size := by
        rw [additions_append] at few
        omega
      obtain ⟨middle, written, middleFollows, sameOffset⟩ :=
        writeEvent_of_canFollow follows fewNow alternates.1
      obtain ⟨next, restWritten, nextFollows, nextOffset⟩ :=
        inductionHypothesis middleFollows few alternates.2
      refine ⟨next, ?_, nextFollows, nextOffset.trans sameOffset⟩
      have entryWritten : scribe.writeEntry (.event event) =
          .ok (lineText (wordsOf past event), middle) := written
      rw [List.map_cons, writeEntries_cons_ok entryWritten, restWritten]
      rfl

theorem alternates_of_writeEvents {scribe final : Scribe} {past events : List Event}
    (follows : scribe.Follows past) (few : additions (events.reverse ++ past) < UInt32.size)
    (done : (scribe.writeEntries (events.map .event)).2 = .ok final) : Alternates past events := by
  induction events generalizing scribe past with
  | nil => trivial
  | cons event rest inductionHypothesis =>
      have regroup : (event :: rest).reverse ++ past = rest.reverse ++ event :: past := by simp
      rw [regroup] at few
      have fewNow : additions (event :: past) < UInt32.size := by
        rw [additions_append] at few
        omega
      obtain ⟨line, next, entryWritten, restDone⟩ := exists_of_writeEntries_cons done
      have written : scribe.writeEvent event = .ok (line, next) := entryWritten
      have possible := canFollow_of_writeEvent follows written
      obtain ⟨middle, sameWritten, middleFollows, -⟩ :=
        writeEvent_of_canFollow follows fewNow possible
      rw [sameWritten] at written
      obtain ⟨-, rfl⟩ := Prod.mk.inj (Except.ok.inj written)
      exact ⟨possible, inductionHypothesis middleFollows few restDone⟩

/-! ## Moments -/

theorem writeEntry_step {scribe : Scribe} {step : UInt64}
    (shiftable : step.toNat + scribe.offset.toNat < UInt64.size) :
    scribe.writeEntry (.step step) =
      .ok (lineText (stepWords (step + scribe.offset)),
        { scribe with step := step + scribe.offset }) := by
  rw [writeEntry, if_pos shiftable, ← stepLine_eq]

theorem shiftable_of_writeEntry {scribe next : Scribe} {step : UInt64} {line : String}
    (written : scribe.writeEntry (.step step) = .ok (line, next)) :
    step.toNat + scribe.offset.toNat < UInt64.size := by
  rw [writeEntry] at written
  split at written
  · assumption
  · cases written

theorem Follows.atStep {scribe : Scribe} {past : List Event} (follows : scribe.Follows past)
    (step : UInt64) : Follows { scribe with step } past :=
  ⟨follows.edges, follows.opened⟩

/-- Moments whose steps can be shifted and whose events can follow one another are written with the
words of their transcript. -/
theorem writeMoments_of_alternates {scribe : Scribe} {past : List Event} {moments : List Moment}
    (follows : scribe.Follows past)
    (few : additions ((moments.flatMap (·.events)).reverse ++ past) < UInt32.size)
    (shiftable : ∀ moment ∈ moments, moment.step.toNat + scribe.offset.toNat < UInt64.size)
    (alternates : Alternates past (moments.flatMap (·.events))) :
    ∃ next, scribe.writeEntries (moments.flatMap Entry.ofMoment) =
        ((bodyWords scribe.offset past moments).map lineText, .ok next) ∧
      next.Follows ((moments.flatMap (·.events)).reverse ++ past) := by
  induction moments generalizing scribe past with
  | nil => exact ⟨scribe, rfl, follows⟩
  | cons moment rest inductionHypothesis =>
      simp only [List.flatMap_cons, List.reverse_append, List.append_assoc] at few ⊢
      rw [List.flatMap_cons, alternates_append] at alternates
      have fewNow : additions (moment.events.reverse ++ past) < UInt32.size := by
        rw [additions_append] at few
        omega
      have stepWritten := writeEntry_step (shiftable moment List.mem_cons_self)
      obtain ⟨middle, eventsWritten, middleFollows, sameOffset⟩ :=
        writeEvents_of_alternates (follows.atStep (moment.step + scribe.offset)) fewNow
          alternates.1
      have same : middle.offset = scribe.offset := sameOffset
      obtain ⟨next, restWritten, nextFollows⟩ :=
        inductionHypothesis middleFollows few
          (fun other member => same ▸ shiftable other (List.mem_cons_of_mem _ member)) alternates.2
      refine ⟨next, ?_, nextFollows⟩
      rw [Entry.ofMoment, List.cons_append, writeEntries_cons_ok stepWritten,
        writeEntries_append_ok eventsWritten, restWritten, same]
      simp [bodyWords]

/-- Moments that are all written have steps that can be shifted and events that can follow one
another. -/
theorem alternates_of_writeMoments {scribe final : Scribe} {past : List Event}
    {moments : List Moment} (follows : scribe.Follows past)
    (few : additions ((moments.flatMap (·.events)).reverse ++ past) < UInt32.size)
    (done : (scribe.writeEntries (moments.flatMap Entry.ofMoment)).2 = .ok final) :
    (∀ moment ∈ moments, moment.step.toNat + scribe.offset.toNat < UInt64.size) ∧
      Alternates past (moments.flatMap (·.events)) := by
  induction moments generalizing scribe past with
  | nil => exact ⟨by simp, trivial⟩
  | cons moment rest inductionHypothesis =>
      simp only [List.flatMap_cons, List.reverse_append, List.append_assoc] at few
      have fewNow : additions (moment.events.reverse ++ past) < UInt32.size := by
        rw [additions_append] at few
        omega
      rw [List.flatMap_cons, Entry.ofMoment, List.cons_append] at done
      obtain ⟨line, stepped, stepWritten, afterStep⟩ := exists_of_writeEntries_cons done
      have stepShiftable := shiftable_of_writeEntry stepWritten
      rw [writeEntry_step stepShiftable] at stepWritten
      obtain ⟨-, rfl⟩ := Prod.mk.inj (Except.ok.inj stepWritten)
      obtain ⟨lines, next, eventsWritten, restDone⟩ := exists_of_writeEntries_append afterStep
      have atStep := follows.atStep (moment.step + scribe.offset)
      have alternates := alternates_of_writeEvents atStep fewNow (congrArg Prod.snd eventsWritten)
      obtain ⟨middle, sameWritten, middleFollows, sameOffset⟩ :=
        writeEvents_of_alternates atStep fewNow alternates
      rw [sameWritten] at eventsWritten
      obtain rfl := Except.ok.inj (Prod.mk.inj eventsWritten).2
      have same : middle.offset = scribe.offset := sameOffset
      obtain ⟨restShiftable, restAlternates⟩ := inductionHypothesis middleFollows few restDone
      rw [same] at restShiftable
      refine ⟨List.forall_mem_cons.mpr ⟨stepShiftable, restShiftable⟩, ?_⟩
      rw [List.flatMap_cons, alternates_append]
      exact ⟨alternates, restAlternates⟩

end Scribe

end GraphStream

/-! ## Whole timelines -/

namespace Timeline

open GraphStream

/-- The events of a timeline in order. -/
def events (timeline : Timeline) : List Event := timeline.moments.flatMap (·.events)

/-- A timeline that can be written under the name of a graph. -/
structure Writable (timeline : Timeline) (graphName : String) : Prop where
  token : Text.isToken graphName.toList = true
  distinct : timeline.sharedLabel? = none
  shiftable : ∀ moment ∈ timeline.moments,
    moment.step.toNat + timeline.offset.toNat < UInt64.size
  alternates : Alternates [] timeline.events

/-- The words of all lines that are written. -/
def words (timeline : Timeline) (graphName : String) : List (List String) :=
  [[formatTag], [graphName, toString timeline.stepCount, toString timeline.lineCount],
    stepWords 0] ++
  timeline.nodes.keys.map (fun node => [Action.addNode.word, node.label]) ++
  bodyWords timeline.offset [] timeline.moments

/-- The words of the lines before the first step. -/
def preambleWords (timeline : Timeline) (graphName : String) : List (List String) :=
  [[formatTag], [graphName, toString timeline.stepCount, toString timeline.lineCount],
    stepWords 0] ++
  timeline.nodes.keys.map fun node => [Action.addNode.word, node.label]

theorem preamble_eq (timeline : Timeline) (graphName : String) :
    timeline.preamble graphName = (timeline.preambleWords graphName).map lineText := by
  have nodeLines : timeline.nodes.keys.map (fun node => s!"{Action.addNode} {node}") =
      (timeline.nodes.keys.map fun node => [Action.addNode.word, node.label]).map lineText := by
    rw [List.map_map]
    exact List.map_congr_left fun node _ => nodeLine_eq node
  rw [preamble, nodeLines, headerLine_eq, preambleWords, List.map_append]
  rfl

/-- A timeline that has a text can be written to its last entry. -/
theorem exists_scribe_of_graphText {timeline : Timeline} {graphName text : String}
    (done : timeline.graphText graphName = .ok text) :
    Text.isToken graphName.toList = true ∧ timeline.sharedLabel? = none ∧
      ∃ scribe, (Scribe.writeEntries { offset := timeline.offset } timeline.entries).2 =
          .ok scribe ∧
        text = String.join ((timeline.preamble graphName ++
          (Scribe.writeEntries { offset := timeline.offset } timeline.entries).1).map
            (· ++ "\n")) := by
  rw [graphText, manuscript] at done
  by_cases token : Text.isToken graphName.toList = true
  · rw [token] at done
    simp only [Bool.not_true, Bool.false_eq_true, if_false] at done
    cases distinct : timeline.sharedLabel? with
    | some value =>
        rw [distinct] at done
        cases done
    | none =>
        rw [distinct] at done
        dsimp only at done
        cases outcome : (Scribe.writeEntries { offset := timeline.offset } timeline.entries).2 with
        | error cause =>
            rw [outcome] at done
            cases done
        | ok scribe =>
            rw [outcome] at done
            exact ⟨token, rfl, scribe, rfl, (Except.ok.inj done).symm⟩
  · rw [Bool.not_eq_true] at token
    rw [token] at done
    cases done

section Writing

variable {timeline : Timeline} {graphName : String}
  (few : additions timeline.events < UInt32.size)
include few

theorem few_reverse : additions (timeline.events.reverse ++ []) < UInt32.size := by
  rwa [List.append_nil, additions_reverse]

/-- A writable timeline is written with the words of its transcript. -/
theorem manuscript_of_writable (writable : timeline.Writable graphName) :
    timeline.manuscript graphName =
      ⟨(timeline.words graphName).map lineText,
        .ok ⟨timeline.stepCount, timeline.lineCount, additions timeline.events⟩⟩ := by
  obtain ⟨scribe, written, follows⟩ :=
    Scribe.writeMoments_of_alternates (Scribe.follows_nil timeline.offset) (few_reverse few)
      writable.shiftable writable.alternates
  have edges : scribe.edges.next.toNat = additions timeline.events := by
    rw [follows.edges, List.append_nil, additions_reverse]
    rfl
  rw [manuscript, writable.token, writable.distinct]
  simp only [Bool.not_true, Bool.false_eq_true, if_false]
  rw [entries, written, preamble_eq]
  dsimp only
  rw [edges, ← List.map_append]
  rfl

theorem graphText_of_writable (writable : timeline.Writable graphName) :
    timeline.graphText graphName =
      .ok (joinLines (timeline.words graphName)) := by
  rw [graphText, manuscript_of_writable few writable]
  simp only [Manuscript.text, List.map_map]
  rfl

/-- Only a writable timeline has a text. -/
theorem writable_of_graphText {text : String} (done : timeline.graphText graphName = .ok text) :
    timeline.Writable graphName := by
  obtain ⟨token, distinct, scribe, outcome, -⟩ := exists_scribe_of_graphText done
  obtain ⟨shiftable, alternates⟩ :=
    Scribe.alternates_of_writeMoments (Scribe.follows_nil timeline.offset)
      (few_reverse few) outcome
  exact ⟨token, distinct, shiftable, alternates⟩

end Writing

end Timeline

end ContactReplay
