import ContactReplay.Proofs.GraphStream.Reading
import Mathlib.Data.List.Forall2

/-!
# Written lines that can be read back

The lines that are written of a timeline can be read exactly if the name of the graph does not begin
like a comment and every label of an added pair is a token that is no direction.

* `Entry.Worded` relates an entry to the words it may be written with.  It leaves open which edge an
  event names, so it holds of whatever is written, even when the numbers of edges start over.
* `exists_readLines_of_worded` reads such lines back as long as the labels are legible.
* `legible_of_readLine` goes the other way: the line of an addition that could be read has two
  legible labels.
-/

namespace ContactReplay

namespace GraphStream

/-! ## Writing -/

/-- The words that an entry may be written with, whichever edge it names. -/
inductive Entry.Worded (offset : UInt64) : Entry → List String → Prop where
  | step {step : UInt64} (fits : step.toNat + offset.toNat < UInt64.size) :
      Worded offset (.step step) (stepWords (step + offset))
  | event (event : Event) (edge : Nat) : Worded offset (.event event) (namedWords edge event)

namespace Scribe

theorem worded_of_writeEntry {scribe next : Scribe} {entry : Entry} {line : String}
    (written : scribe.writeEntry entry = .ok (line, next)) :
    (∃ words, entry.Worded scribe.offset words ∧ line = lineText words) ∧
      next.offset = scribe.offset := by
  cases entry with
  | step step =>
      have fits := shiftable_of_writeEntry written
      rw [writeEntry_step fits] at written
      obtain ⟨rfl, rfl⟩ := Prod.mk.inj (Except.ok.inj written)
      exact ⟨⟨_, .step fits, rfl⟩, rfl⟩
  | event event =>
      obtain ⟨change, pair⟩ := event
      rw [writeEntry, writeEvent] at written
      dsimp only at written
      split at written
      · cases written
      · obtain ⟨rfl, rfl⟩ := Prod.mk.inj (Except.ok.inj written)
        exact ⟨⟨_, .event ⟨.add, pair⟩ scribe.edges.next.toNat, additionLine_eq _ _ _⟩, rfl⟩
      · rename_i edge found
        obtain ⟨rfl, rfl⟩ := Prod.mk.inj (Except.ok.inj written)
        exact ⟨⟨_, .event ⟨.delete, pair⟩ edge.toNat, deletionLine_eq edge⟩, rfl⟩
      · cases written

theorem worded_of_writeEntries {scribe final : Scribe} {entries : List Entry}
    (done : (scribe.writeEntries entries).2 = .ok final) :
    ∃ body, List.Forall₂ (Entry.Worded scribe.offset) entries body ∧
      (scribe.writeEntries entries).1 = body.map lineText := by
  induction entries generalizing scribe with
  | nil => exact ⟨[], .nil, rfl⟩
  | cons entry rest inductionHypothesis =>
      obtain ⟨line, next, written, restDone⟩ := exists_of_writeEntries_cons done
      obtain ⟨⟨words, worded, rfl⟩, sameOffset⟩ := worded_of_writeEntry written
      obtain ⟨body, restWorded, restWritten⟩ := inductionHypothesis restDone
      rw [sameOffset] at restWorded
      refine ⟨words :: body, .cons worded restWorded, ?_⟩
      rw [writeEntries_cons_ok written, restWritten, List.map_cons]

end Scribe

namespace Entry

variable {offset : UInt64} {entries : List Entry} {body : List (List String)}
  (worded : List.Forall₂ (Worded offset) entries body)
include worded

theorem exists_words {entry : Entry} (member : entry ∈ entries) :
    ∃ words ∈ body, entry.Worded offset words := by
  induction worded with
  | nil => cases member
  | cons first _ inductionHypothesis =>
      rcases List.mem_cons.mp member with rfl | later
      · exact ⟨_, List.mem_cons_self, first⟩
      · obtain ⟨words, wordsMember, other⟩ := inductionHypothesis later
        exact ⟨words, List.mem_cons_of_mem _ wordsMember, other⟩

theorem exists_entry {words : List String} (member : words ∈ body) :
    ∃ entry ∈ entries, entry.Worded offset words := by
  induction worded with
  | nil => cases member
  | cons first _ inductionHypothesis =>
      rcases List.mem_cons.mp member with rfl | later
      · exact ⟨_, List.mem_cons_self, first⟩
      · obtain ⟨entry, entryMember, other⟩ := inductionHypothesis later
        exact ⟨entry, List.mem_cons_of_mem _ entryMember, other⟩

end Entry

/-! ## Reading what is legible -/

namespace Entry

/-- The step that an entry begins, as it is written. -/
def begins? (offset : UInt64) : Entry → Option UInt64
  | .step first => some (first + offset)
  | .event _ => none

end Entry

/-- The lines of legible entries can be read within a step, if the steps that they begin ascend from
there. -/
theorem Stage.exists_readLines_of_worded {offset : UInt64} {entries : List Entry}
    {body : List (List String)} (worded : List.Forall₂ (Entry.Worded offset) entries body)
    (legible : ∀ event, .event event ∈ entries → event.Legible)
    {header : Header} {nodes : List String} {current : DocumentStep} {earlier : List DocumentStep}
    (ascending : (current.step :: entries.filterMap (Entry.begins? offset)).Pairwise (· < ·))
    (number : Nat) :
    ∃ next, readLines (.body ⟨header, nodes, current :: earlier⟩) (wordLines number body) =
      .ok (.body next) ∧ next.nodes = nodes := by
  induction worded generalizing current earlier number with
  | nil => exact ⟨_, rfl, rfl⟩
  | @cons entry words rest others entryWorded _ inductionHypothesis =>
      have restLegible : ∀ event, .event event ∈ rest → event.Legible := fun event member =>
        legible event (List.mem_cons_of_mem _ member)
      cases entryWorded with
      | @step step _ =>
          obtain ⟨later, restAscending⟩ := List.pairwise_cons.mp ascending
          have read := readLine_body (@Draft.readLine_stepWords
            ⟨header, nodes, current :: earlier⟩ _ (later _ List.mem_cons_self) number)
          obtain ⟨next, restRead, same⟩ := @inductionHypothesis restLegible
            ⟨step + offset, number, []⟩ (current :: earlier) restAscending (number + 1)
          exact ⟨next, (readLines_cons read _).trans restRead, same⟩
      | event event edge =>
          have read := readLine_body (Draft.readLine_namedWords header nodes current earlier
            (legible event List.mem_cons_self) edge number)
          obtain ⟨next, restRead, same⟩ := @inductionHypothesis restLegible
            { current with lines := namedLine edge event number :: current.lines } earlier
            ascending (number + 1)
          exact ⟨next, (readLines_cons read _).trans restRead, same⟩

/-- The lines of legible entries can be read right after the setup step. -/
theorem Stage.exists_readLines_of_worded_setup {offset : UInt64} {entries : List Entry}
    {body : List (List String)} (worded : List.Forall₂ (Entry.Worded offset) entries body)
    (legible : ∀ event, .event event ∈ entries → event.Legible)
    {header : Header} {nodes : List String}
    (ascending : ((0 : UInt64) :: entries.filterMap (Entry.begins? offset)).Pairwise (· < ·))
    (setup : ∀ event, entries.head? ≠ some (.event event)) (number : Nat) :
    ∃ next, readLines (.body ⟨header, nodes, []⟩) (wordLines number body) =
      .ok (.body next) ∧ next.nodes = nodes := by
  cases worded with
  | nil => exact ⟨_, rfl, rfl⟩
  | @cons entry words rest others entryWorded restWorded =>
      cases entryWorded with
      | @step step _ =>
          obtain ⟨later, restAscending⟩ := List.pairwise_cons.mp ascending
          have read := readLine_body (@Draft.readLine_stepWords
            ⟨header, nodes, []⟩ _ (later _ List.mem_cons_self) number)
          obtain ⟨next, restRead, same⟩ := @exists_readLines_of_worded _ _ _ restWorded
            (fun event member => legible event (List.mem_cons_of_mem _ member)) header nodes
            ⟨step + offset, number, []⟩ [] restAscending (number + 1)
          exact ⟨next, (readLines_cons read _).trans restRead, same⟩
      | event event edge => exact absurd rfl (setup event)

/-! ## What has been read is legible -/

theorem words_append_blank (first second : List Char) :
    Text.words (first ++ ' ' :: second) = Text.words first ++ Text.words second := by
  rw [Text.words, Text.tokens_append_blank (by decide), List.map_append]
  rfl

theorem words_of_isToken {word : String} (token : Text.isToken word.toList = true) :
    Text.words word.toList = [word] := by
  rw [Text.words, Text.tokens_of_isToken token]
  simp

theorem words_ne_nil {text : List Char} (firm : Text.Firm text) : Text.words text ≠ [] := by
  obtain ⟨first, begins, visible⟩ := firm.first
  have some := Text.tokens_ne_nil (List.mem_of_head? begins) visible
  exact fun none => some (List.map_eq_nil_iff.mp none)

theorem isToken_of_length_words {label : String} (firm : Text.Firm label.toList)
    (single : (Text.words label.toList).length = 1) : Text.isToken label.toList = true :=
  firm.isToken_of_length (by rwa [Text.words, List.length_map] at single)

theorem exists_of_readAddition {line : List Char} {number : Nat} {operands : List String}
    {edgeLine : EdgeLine} (read : readAddition line number operands = .ok edgeLine) :
    operands.length = 3 ∧ ∀ operand ∈ operands, operand ≠ ">" ∧ operand ≠ "<" := by
  unfold readAddition at read
  split at read
  · cases read
  · rename_i undirected
    refine ⟨?_, fun operand member => ⟨?_, ?_⟩⟩
    · split at read
      · rfl
      · cases read
    · rintro rfl
      exact undirected (Or.inl member)
    · rintro rfl
      exact undirected (Or.inr member)

namespace Draft

theorem exists_of_readLine_addition {draft next : Draft} {line : Text.Line}
    {operands : List String} (words : Text.words line.text = Action.addEdge.word :: operands)
    (read : draft.readLine line = .ok next) :
    operands.length = 3 ∧ ∀ operand ∈ operands, operand ≠ ">" ∧ operand ≠ "<" := by
  rw [readLine, words] at read
  dsimp only at read
  split at read
  · simp only [readSetupLine, Action.ofWord?_word] at read
    cases read
  · simp only [readStepLine, Action.ofWord?_word] at read
    cases added : readAddition line.text line.number operands with
    | error cause =>
        rw [added] at read
        cases read
    | ok edgeLine => exact exists_of_readAddition added

/-- The labels in the line of an addition that could be read are tokens and no directions. -/
theorem legible_of_readLine {draft next : Draft} {pair : Pair NodeName}
    (low : Text.Firm pair.low.label.toList) (high : Text.Firm pair.high.label.toList)
    {edge number : Nat}
    (read : draft.readLine ⟨number,
      Text.sentence ((namedWords edge ⟨.add, pair⟩).map String.toList)⟩ = .ok next) :
    ∀ label ∈ [pair.low.label, pair.high.label],
      Text.isToken label.toList = true ∧ label ≠ ">" ∧ label ≠ "<" := by
  have words : Text.words (Text.sentence ((namedWords edge ⟨.add, pair⟩).map String.toList)) =
      Action.addEdge.word :: edgeName edge ::
        (Text.words pair.low.label.toList ++ Text.words pair.high.label.toList) := by
    have line : Text.sentence ((namedWords edge ⟨.add, pair⟩).map String.toList) =
        Action.addEdge.word.toList ++ ' ' :: ((edgeName edge).toList ++
          ' ' :: (pair.low.label.toList ++ ' ' :: pair.high.label.toList)) := rfl
    rw [line, words_append_blank, words_append_blank, words_append_blank,
      words_of_isToken (Action.isToken_word _), words_of_isToken (isToken_edgeName edge)]
    rfl
  obtain ⟨count, undirected⟩ := exists_of_readLine_addition words read
  have lowSome := List.length_pos_iff.mpr (words_ne_nil low)
  have highSome := List.length_pos_iff.mpr (words_ne_nil high)
  rw [List.length_cons, List.length_append] at count
  have lowToken := isToken_of_length_words low (by omega)
  have highToken := isToken_of_length_words high (by omega)
  rw [words_of_isToken lowToken, words_of_isToken highToken] at undirected
  rw [List.forall_mem_cons, List.forall_mem_singleton]
  exact ⟨⟨lowToken, undirected _ (by simp)⟩, highToken, undirected _ (by simp)⟩

end Draft

/-- Every line that has been read could be taken into some draft. -/
theorem Stage.exists_readLine_of_readLines {draft : Draft} {lines : List Text.Line}
    {stage : Stage} (read : readLines (.body draft) lines = .ok stage) :
    ∀ line ∈ lines, ∃ before after : Draft, before.readLine line = .ok after := by
  induction lines generalizing draft with
  | nil => nofun
  | cons line rest inductionHypothesis =>
      cases taken : draft.readLine line with
      | error cause =>
          rw [readLines, List.foldlM_cons, Stage.readLine, readText, taken] at read
          cases read
      | ok next =>
          rw [readLines_cons (readLine_body taken)] at read
          exact List.forall_mem_cons.mpr ⟨⟨draft, next, taken⟩, inductionHypothesis read⟩

theorem firm_line {words : List String} (nonempty : words ≠ [])
    (firm : ∀ word ∈ words, Text.Firm word.toList) :
    Text.Firm (Text.sentence (words.map String.toList)) :=
  Text.Firm.sentence (List.forall_mem_map.mpr firm) (by simpa using nonempty)

theorem head?_actionLine_ne (action : Action) (rest : List String) :
    (Text.sentence ((action.word :: rest).map String.toList)).head? ≠ some '#' := by
  rw [List.map_cons, Text.head?_sentence (Text.isToken_iff.mp action.isToken_word).1]
  exact Timeline.head?_word_ne action

theorem exists_mem_wordLines {lines : List (List String)} {words : List String}
    (member : words ∈ lines) (number : Nat) :
    ∃ place, ⟨place, Text.sentence (words.map String.toList)⟩ ∈ wordLines number lines := by
  obtain ⟨before, behind, rfl⟩ := List.append_of_mem member
  rw [wordLines_append]
  exact ⟨_, List.mem_append_right _ List.mem_cons_self⟩

end GraphStream

/-! ## Whole timelines -/

namespace Timeline

open GraphStream

variable {timeline : Timeline} {graphName text : String}

/-- The lines of a timeline that has been written. -/
theorem exists_of_graphText (written : timeline.graphText graphName = .ok text) :
    Text.isToken graphName.toList = true ∧ timeline.sharedLabel? = none ∧
      ∃ body, List.Forall₂ (Entry.Worded timeline.offset) timeline.entries body ∧
        text = joinLines (timeline.preambleWords graphName ++ body) := by
  obtain ⟨token, distinct, scribe, outcome, whole⟩ := exists_scribe_of_graphText written
  obtain ⟨body, worded, lines⟩ := Scribe.worded_of_writeEntries outcome
  refine ⟨token, distinct, body, worded, ?_⟩
  rw [whole, lines, preamble_eq, ← List.map_append, List.map_map]
  rfl

theorem event_mem_entries_iff {event : Event} :
    .event event ∈ timeline.entries ↔ event ∈ timeline.events := by
  simp [entries, events, Entry.ofMoment]

theorem step_mem_entries {moment : Moment} (member : moment ∈ timeline.moments) :
    .step moment.step ∈ timeline.entries :=
  List.mem_flatMap.mpr ⟨moment, member, List.mem_cons_self⟩

theorem entries_head?_ne (timeline : Timeline) (event : Event) :
    timeline.entries.head? ≠ some (.event event) := by
  rw [entries]
  cases timeline.moments with
  | nil => simp
  | cons moment rest => simp [Entry.ofMoment]

theorem filterMap_begins?_entries (timeline : Timeline) (offset : UInt64) :
    timeline.entries.filterMap (Entry.begins? offset) =
      timeline.moments.map fun moment => moment.step + offset := by
  have each : ∀ moment : Moment,
      (Entry.ofMoment moment).filterMap (Entry.begins? offset) = [moment.step + offset] := by
    intro moment
    simp [Entry.ofMoment, Entry.begins?, List.filterMap_map, Function.comp_def]
  rw [entries, List.filterMap_flatMap, List.map_eq_flatMap]
  exact congrArg (List.flatMap · timeline.moments) (funext each)

/-- No line is a comment but perhaps the header. -/
theorem loud_lines (token : Text.isToken graphName.toList = true)
    (loud : graphName.toList.head? ≠ some '#')
    {body : List (List String)}
    (worded : List.Forall₂ (Entry.Worded timeline.offset) timeline.entries body) :
    ∀ words ∈ timeline.preambleWords graphName ++ body,
      (Text.sentence (words.map String.toList)).head? ≠ some '#' := by
  rw [preambleWords, List.forall_mem_append, List.forall_mem_append, List.forall_mem_cons,
    List.forall_mem_cons, List.forall_mem_singleton, List.forall_mem_map]
  refine ⟨⟨⟨by decide, ?_, ?_⟩, ?_⟩, ?_⟩
  · rwa [List.map_cons, Text.head?_sentence (Text.isToken_iff.mp token).1]
  · exact head?_actionLine_ne .step _
  · exact fun node _ => head?_actionLine_ne .addNode _
  · intro words member
    obtain ⟨entry, -, entryWorded⟩ := Entry.exists_entry worded member
    cases entryWorded with
    | step fits => exact head?_actionLine_ne .step _
    | event event edge =>
        rw [namedWords]
        split
        · exact head?_actionLine_ne .addEdge _
        · exact head?_actionLine_ne .deleteEdge _

/-- A timeline between nodes with firm labels, each of which is added to another one. -/
structure Populated (timeline : Timeline) : Prop where
  firm : ∀ node ∈ timeline.nodes.keys, Text.Firm node.label.toList
  ends : ∀ event ∈ timeline.events,
    event.pair.low ∈ timeline.nodes.keys ∧ event.pair.high ∈ timeline.nodes.keys
  different : ∀ event ∈ timeline.events, event.pair.low.label ≠ event.pair.high.label
  added : ∀ node ∈ timeline.nodes.keys, ∃ pair, ⟨.add, pair⟩ ∈ timeline.events ∧
    node ∈ [pair.low, pair.high]

/-- A label that can be read where it is written. -/
def LegibleLabel (label : String) : Prop :=
  Text.isToken label.toList = true ∧ label ≠ ">" ∧ label ≠ "<"

namespace Populated

variable {body : List (List String)} (populated : timeline.Populated)
include populated

theorem firm_of_mem_namedWords {event : Event} (member : event ∈ timeline.events) (edge : Nat) :
    ∀ word ∈ namedWords edge event, Text.Firm word.toList := by
  obtain ⟨low, high⟩ := populated.ends event member
  have edgeFirm := Text.Firm.of_isToken (isToken_edgeName edge)
  have actionFirm := fun action => Text.Firm.of_isToken (Action.isToken_word action)
  rw [namedWords]
  split
  · simp [actionFirm, edgeFirm, populated.firm _ low, populated.firm _ high]
  · simp [actionFirm, edgeFirm]

theorem firm_of_worded {offset : UInt64} {entry : Entry} (member : entry ∈ timeline.entries)
    {words : List String} (worded : entry.Worded offset words) :
    Text.Firm (Text.sentence (words.map String.toList)) := by
  cases worded with
  | step fits =>
      exact firm_line (by simp [stepWords]) fun word inStep =>
        Text.Firm.of_isToken (isToken_of_mem_stepWords _ word inStep)
  | event event edge =>
      refine firm_line ?_
        (populated.firm_of_mem_namedWords (event_mem_entries_iff.mp member) edge)
      rw [namedWords]
      split <;> exact List.cons_ne_nil _ _

theorem firm_of_mem_preambleWords (token : Text.isToken graphName.toList = true) :
    ∀ words ∈ timeline.preambleWords graphName,
      Text.Firm (Text.sentence (words.map String.toList)) := by
  have actionFirm := fun action => Text.Firm.of_isToken (Action.isToken_word action)
  have countFirm := fun count => Text.Firm.of_isToken (Text.isToken_toString count)
  have tagFirm : Text.Firm formatTag.toList := Text.Firm.of_isToken (by decide)
  have nameFirm := Text.Firm.of_isToken token
  rw [preambleWords, List.forall_mem_append, List.forall_mem_cons, List.forall_mem_cons,
    List.forall_mem_singleton, List.forall_mem_map]
  refine ⟨⟨?_, ?_, ?_⟩, fun node member => ?_⟩ <;> apply firm_line (List.cons_ne_nil _ _)
  · simpa using tagFirm
  · simp only [List.forall_mem_cons]
    exact ⟨nameFirm, countFirm _, countFirm _, by simp⟩
  · exact fun word inStep => Text.Firm.of_isToken (isToken_of_mem_stepWords 0 word inStep)
  · simpa using ⟨actionFirm .addNode, populated.firm node member⟩

/-- All lines that are written are firm. -/
theorem firm_lines (token : Text.isToken graphName.toList = true)
    (worded : List.Forall₂ (Entry.Worded timeline.offset) timeline.entries body) :
    ∀ words ∈ timeline.preambleWords graphName ++ body,
      Text.Firm (Text.sentence (words.map String.toList)) := by
  refine List.forall_mem_append.mpr ⟨populated.firm_of_mem_preambleWords token, ?_⟩
  intro words member
  obtain ⟨entry, entryMember, entryWorded⟩ := Entry.exists_entry worded member
  exact populated.firm_of_worded entryMember entryWorded

/-- A header that begins like a comment is passed over, and then the setup line is no header. -/
theorem head?_ne_of_read (token : Text.isToken graphName.toList = true)
    (worded : List.Forall₂ (Entry.Worded timeline.offset) timeline.entries body)
    {document : Document}
    (read : Document.read (joinLines (timeline.preambleWords graphName ++ body)) = .ok document) :
    graphName.toList.head? ≠ some '#' := by
  intro comment
  have silent : Text.isSilent (Text.sentence ([graphName, toString timeline.stepCount,
      toString timeline.lineCount].map String.toList)) = true :=
    Text.isSilent_of_comment (Text.isToken_iff.mp token).1 comment _
  have tagLoud : Text.isSilent (Text.sentence (([formatTag] : List String).map String.toList)) =
      false := by decide
  have setupLoud : Text.isSilent (Text.sentence ((stepWords 0).map String.toList)) = false := by
    decide
  have setupNoHeader : Stage.readLine (.tagged 1)
      ⟨3, Text.sentence ((stepWords 0).map String.toList)⟩ =
        .error (.format 3 (.stream (.malformedHeader "st 0"))) := rfl
  have lines : (timeline.preambleWords graphName ++ body).map
      (fun words => Text.sentence (words.map String.toList)) =
        Text.sentence (([formatTag] : List String).map String.toList) ::
        Text.sentence ([graphName, toString timeline.stepCount,
          toString timeline.lineCount].map String.toList) ::
        Text.sentence ((stepWords 0).map String.toList) ::
        ((timeline.nodes.keys.map fun node => [Action.addNode.word, node.label]) ++ body).map
          fun words => Text.sentence (words.map String.toList) := rfl
  rw [Document.read, spokenLines_joinLines (populated.firm_lines token worded), lines,
    Text.spoken_cons_of_loud tagLoud, Text.spoken_cons_of_silent silent,
    Text.spoken_cons_of_loud setupLoud, List.foldlM_cons, Stage.readLine_formatTag] at read
  dsimp only [bind, Except.bind] at read
  rw [List.foldlM_cons, setupNoHeader] at read
  cases read

theorem legible_of_mem (legible : ∀ node ∈ timeline.nodes.keys, LegibleLabel node.label)
    {event : Event} (member : event ∈ timeline.events) : event.Legible := by
  obtain ⟨low, high⟩ := populated.ends event member
  have lowLegible := legible _ low
  have highLegible := legible _ high
  refine ⟨lowLegible.1, highLegible.1, ?_, populated.different event member⟩
  rw [List.forall_mem_cons, List.forall_mem_singleton]
  exact ⟨lowLegible.2, highLegible.2⟩

section Fitting

variable (stepsFit : timeline.stepCount < UInt64.size) (linesFit : timeline.lineCount < UInt64.size)
  (token : Text.isToken graphName.toList = true)
  (worded : List.Forall₂ (Entry.Worded timeline.offset) timeline.entries body)
include stepsFit linesFit token worded

/-- If the lines of a timeline could be read, the labels of its nodes are legible. -/
theorem legibleLabel_of_read {document : Document}
    (read : Document.read (joinLines (timeline.preambleWords graphName ++ body)) = .ok document) :
    ∀ node ∈ timeline.nodes.keys, LegibleLabel node.label := by
  have loud := populated.head?_ne_of_read token worded read
  have opening := Stage.readLines_opening token (UInt64.ofNat timeline.stepCount)
    (UInt64.ofNat timeline.lineCount)
  rw [UInt64.toNat_ofNat_of_lt' stepsFit, UInt64.toNat_ofNat_of_lt' linesFit] at opening
  rw [read_joinLines (populated.firm_lines token worded) (loud_lines token loud worded),
    preambleWords, List.append_assoc, wordLines_append, Stage.readLines_append opening] at read
  intro node member
  obtain ⟨pair, added, among⟩ := populated.added node member
  obtain ⟨words, inBody, entryWorded⟩ :=
    Entry.exists_words worded (event_mem_entries_iff.mpr added)
  cases entryWorded with
  | event event edge =>
      obtain ⟨place, line⟩ := exists_mem_wordLines (List.mem_append_right _ inBody) _
      cases outcome : Stage.readLines (.body { header := ⟨graphName,
          UInt64.ofNat timeline.stepCount, UInt64.ofNat timeline.lineCount⟩ }) _ with
      | error cause =>
          rw [outcome] at read
          cases read
      | ok stage =>
          obtain ⟨before, after, taken⟩ :=
            Stage.exists_readLine_of_readLines outcome _ line
          obtain ⟨low, high⟩ := populated.ends _ added
          have legible := Draft.legible_of_readLine (populated.firm _ low)
            (populated.firm _ high) taken
          exact legible _ (List.mem_map_of_mem among)

/-- The lines of a timeline with legible labels can be read. -/
theorem exists_read (ascending : timeline.moments.Pairwise fun earlier later =>
      earlier.step < later.step)
    (loud : graphName.toList.head? ≠ some '#')
    (legible : ∀ node ∈ timeline.nodes.keys, LegibleLabel node.label) :
    ∃ document, Document.read (joinLines (timeline.preambleWords graphName ++ body)) =
      .ok document ∧ document.nodes = timeline.nodes.keys.map NodeName.label := by
  have preambleRead := readLines_preambleWords (fun node member => (legible node member).1) token
    stepsFit linesFit
  have shiftable : ∀ moment ∈ timeline.moments,
      moment.step.toNat + timeline.offset.toNat < UInt64.size := by
    intro moment member
    obtain ⟨words, -, entryWorded⟩ := Entry.exists_words worded (step_mem_entries member)
    cases entryWorded with
    | step fits => exact fits
  have rising : ((0 : UInt64) :: timeline.entries.filterMap
      (Entry.begins? timeline.offset)).Pairwise (· < ·) := by
    rw [filterMap_begins?_entries, List.pairwise_cons, List.forall_mem_map, List.pairwise_map]
    exact ⟨shifted_pos shiftable ascending, shifted_ascending shiftable ascending⟩
  obtain ⟨draft, bodyRead, nodes⟩ := @Stage.exists_readLines_of_worded_setup _ _ _ worded
    (fun event member => populated.legible_of_mem legible (event_mem_entries_iff.mp member))
    (timeline.document graphName).header (timeline.nodes.keys.map NodeName.label).reverse rising
    (entries_head?_ne timeline) (1 + (timeline.preambleWords graphName).length)
  refine ⟨draft.document, ?_, ?_⟩
  · rw [read_joinLines (populated.firm_lines token worded) (loud_lines token loud worded),
      wordLines_append, Stage.readLines_append preambleRead, bodyRead]
    rfl
  · rw [Draft.document, nodes, List.reverse_reverse]

end Fitting

section Written

variable (stepsFit : timeline.stepCount < UInt64.size) (linesFit : timeline.lineCount < UInt64.size)
  (ascending : timeline.moments.Pairwise fun earlier later => earlier.step < later.step)
  (written : timeline.graphText graphName = .ok text)
include stepsFit linesFit ascending written

/-- What is written of a timeline can be read exactly if its labels are legible and the name of the
graph does not begin like a comment. -/
theorem exists_read_iff :
    (∃ document, Document.read text = .ok document) ↔
      graphName.toList.head? ≠ some '#' ∧
        ∀ node ∈ timeline.nodes.keys, LegibleLabel node.label := by
  obtain ⟨token, -, body, worded, rfl⟩ := exists_of_graphText written
  constructor
  · rintro ⟨document, read⟩
    exact ⟨populated.head?_ne_of_read token worded read,
      populated.legibleLabel_of_read stepsFit linesFit token worded read⟩
  · rintro ⟨loud, legible⟩
    obtain ⟨document, read, -⟩ :=
      populated.exists_read stepsFit linesFit token worded ascending loud legible
    exact ⟨document, read⟩

theorem nodes_of_read {document : Document} (read : Document.read text = .ok document) :
    document.nodes = timeline.nodes.keys.map NodeName.label := by
  obtain ⟨loud, legible⟩ :=
    (populated.exists_read_iff stepsFit linesFit ascending written).mp ⟨document, read⟩
  obtain ⟨token, -, body, worded, rfl⟩ := exists_of_graphText written
  obtain ⟨same, sameRead, nodes⟩ :=
    populated.exists_read stepsFit linesFit token worded ascending loud legible
  obtain rfl := Except.ok.inj (read.symm.trans sameRead)
  exact nodes

end Written

end Populated

end Timeline

end ContactReplay
