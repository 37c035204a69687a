import ContactReplay.Proofs.GraphStream.Capacity
import ContactReplay.Proofs.Pipeline.Legibility
import Mathlib.Data.List.Forall2

/-!
# What a tally counts

A timeline of any shape is written as a whole exactly if it is `Encodable`: the labels of its nodes
differ, its steps can be moved behind the setup step, and the changes of every pair alternate.  The
counts in the header are written before the first event, and they are right for every timeline that
is written to its end: `Tally.Counts` says that they count the lines of the body by their actions.
-/

namespace ContactReplay

open GraphStream

/-! ## Lines by their actions -/

namespace Action

/-- A line begins with the word of an action and a blank. -/
def begins (action : Action) (line : List Char) : Bool :=
  (action.word.toList ++ [' ']).isPrefixOf line

/-- Words are those of a line that begins with an action. -/
def Leads (action : Action) (words : List String) : Prop :=
  ∃ second rest, words = action.word :: second :: rest

/-- A line begins with no other action than the one that leads its words. -/
theorem Leads.begins_eq {action : Action} {words : List String} (leads : action.Leads words)
    (other : Action) : other.begins (lineText words).toList = (other == action) := by
  obtain ⟨second, rest, rfl⟩ := leads
  rw [toList_lineText]
  cases action <;> cases other <;> rfl

/-- Lines are counted by the actions that lead them. -/
theorem countP_lines {actions : List Action} {lines : List (List String)}
    (led : List.Forall₂ Leads actions lines) (test : List Char → Bool) (chosen : Action → Bool)
    (agrees : ∀ action words, action.Leads words → test (lineText words).toList = chosen action) :
    (lines.map fun words => (lineText words).toList).countP test = actions.countP chosen := by
  induction led with
  | nil => rfl
  | cons leads _ inductionHypothesis =>
      rw [List.map_cons, List.countP_cons, List.countP_cons, inductionHypothesis,
        agrees _ _ leads]

end Action

/-- A tally counts the lines of a body by their actions, and there are no other lines. -/
structure Tally.Counts (tally : Tally) (lines : List (List Char)) : Prop where
  length : lines.length = tally.steps + tally.events
  steps : lines.countP Action.step.begins = tally.steps
  events : lines.countP (fun line => Action.addNode.begins line || Action.addEdge.begins line ||
    Action.deleteEdge.begins line) = tally.events
  edges : lines.countP Action.addEdge.begins = tally.edges

/-! ## The actions of a timeline -/

namespace Event

/-- The action of the line of an event. -/
def action (event : Event) : Action :=
  match event.change with
  | .add => .addEdge
  | .delete => .deleteEdge

theorem addEdge_beq_action (event : Event) :
    (Action.addEdge == event.action) = decide (event.change = .add) := by
  obtain ⟨change, pair⟩ := event
  cases change <;> rfl

theorem action_leads (past : List Event) (event : Event) :
    event.action.Leads (wordsOf past event) := by
  obtain ⟨change, pair⟩ := event
  cases change with
  | add => exact ⟨_, _, rfl⟩
  | delete => exact ⟨_, _, rfl⟩

end Event

/-- The actions of the lines of a moment. -/
def Moment.actions (moment : Moment) : List Action := .step :: moment.events.map Event.action

theorem GraphStream.actions_lead_eventWords (past events : List Event) :
    List.Forall₂ Action.Leads (events.map Event.action) (eventWords past events) := by
  induction events generalizing past with
  | nil => exact .nil
  | cons event rest inductionHypothesis =>
      exact .cons (event.action_leads past) (inductionHypothesis _)

theorem GraphStream.actions_lead_bodyWords (offset : UInt64) (past : List Event)
    (moments : List Moment) :
    List.Forall₂ Action.Leads (moments.flatMap Moment.actions) (bodyWords offset past moments) := by
  induction moments generalizing past with
  | nil => exact .nil
  | cons moment rest inductionHypothesis =>
      have begins : Action.step.Leads (stepWords (moment.step + offset)) := ⟨_, _, rfl⟩
      exact List.rel_append (.cons begins (actions_lead_eventWords past moment.events))
        (inductionHypothesis _)

namespace Timeline

/-- The actions of the lines of a timeline after its header. -/
def actions (timeline : Timeline) : List Action :=
  .step :: timeline.nodes.keys.map (fun _ => .addNode) ++ timeline.moments.flatMap Moment.actions

/-- The words of the lines of a timeline after its header. -/
def declaredWords (timeline : Timeline) : List (List String) :=
  stepWords 0 :: timeline.nodes.keys.map (fun node => [Action.addNode.word, node.label]) ++
    bodyWords timeline.offset [] timeline.moments

theorem words_eq (timeline : Timeline) (graphName : String) :
    timeline.words graphName = [formatTag] ::
      [graphName, toString timeline.stepCount, toString timeline.lineCount] ::
        timeline.declaredWords := rfl

theorem actions_lead_declaredWords (timeline : Timeline) :
    List.Forall₂ Action.Leads timeline.actions timeline.declaredWords := by
  refine List.rel_append (.cons ⟨_, _, rfl⟩ ?_) (actions_lead_bodyWords _ _ _)
  rw [List.forall₂_map_left_iff, List.forall₂_map_right_iff]
  exact List.forall₂_same.mpr fun node _ => ⟨_, _, rfl⟩

theorem countP_moments (moments : List Moment) (chosen : Action → Bool) :
    (moments.flatMap Moment.actions).countP chosen =
      (if chosen .step then moments.length else 0) +
        (moments.flatMap (·.events)).countP fun event => chosen event.action := by
  induction moments with
  | nil => simp
  | cons moment rest inductionHypothesis =>
      rw [List.flatMap_cons, List.countP_append, inductionHypothesis, List.flatMap_cons,
        List.countP_append, Moment.actions, List.countP_cons, List.countP_map, List.length_cons]
      simp only [Function.comp_def]
      split <;> omega

/-- The actions of a timeline are one step more than there are moments, the declaration of every
node and the actions of the events. -/
theorem countP_actions (timeline : Timeline) (chosen : Action → Bool) :
    timeline.actions.countP chosen = (if chosen .step then timeline.stepCount else 0) +
      (if chosen .addNode then timeline.nodes.size else 0) +
        timeline.events.countP fun event => chosen event.action := by
  have nodes : (timeline.nodes.keys.map fun _ => Action.addNode).countP chosen =
      if chosen .addNode then timeline.nodes.size else 0 := by
    rw [List.map_const', List.countP_replicate, Table.keys, List.length_map]
    rfl
  rw [actions, List.countP_append, List.countP_cons, nodes, countP_moments, stepCount, events]
  cases chosen .step
  · simp
  · simp
    omega

/-- What is written about a timeline as a whole. -/
def tally (timeline : Timeline) : Tally :=
  ⟨timeline.stepCount, timeline.lineCount, additions timeline.events⟩

/-- Lines of a timeline after its header are counted by its actions. -/
theorem countP_declaredWords (timeline : Timeline) (test : List Char → Bool)
    (chosen : Action → Bool)
    (agrees : ∀ action words, action.Leads words → test (lineText words).toList = chosen action) :
    (timeline.declaredWords.map fun words => (lineText words).toList).countP test =
      (if chosen .step then timeline.stepCount else 0) +
        (if chosen .addNode then timeline.nodes.size else 0) +
          timeline.events.countP fun event => chosen event.action :=
  (Action.countP_lines timeline.actions_lead_declaredWords test chosen agrees).trans
    (timeline.countP_actions chosen)

/-- The tally of a timeline counts the lines after its header. -/
theorem tally_counts (timeline : Timeline) :
    timeline.tally.Counts (timeline.declaredWords.map fun words => (lineText words).toList) where
  length := by
    have all := timeline.countP_declaredWords (fun _ => true) (fun _ => true) fun _ _ _ => rfl
    rw [List.countP_true, List.countP_true] at all
    rw [all, tally, lineCount, eventCount_eq]
    exact Nat.add_assoc _ _ _
  steps := by
    have never : ∀ event ∈ timeline.events, ¬(Action.step == event.action) = true := by
      rintro ⟨change, pair⟩ -
      cases change <;> exact Bool.false_ne_true
    rw [timeline.countP_declaredWords _ _ fun action words leads => leads.begins_eq .step,
      List.countP_eq_zero.mpr never]
    rfl
  events := by
    have always : ∀ event ∈ timeline.events, (Action.addNode == event.action ||
        Action.addEdge == event.action || Action.deleteEdge == event.action) = true := by
      rintro ⟨change, pair⟩ -
      cases change <;> rfl
    rw [timeline.countP_declaredWords _ _ fun action words leads => by
        rw [leads.begins_eq, leads.begins_eq, leads.begins_eq],
      List.countP_eq_length.mpr always, tally, lineCount, eventCount_eq]
    simp
  edges := by
    rw [timeline.countP_declaredWords _ _ fun action words leads => leads.begins_eq .addEdge]
    simp only [Event.addEdge_beq_action]
    simp [tally, additions]

/-! ## Timelines that can be written -/

/-- One if a timeline begins with step zero, which the format keeps for the setup. -/
def delay (timeline : Timeline) : Nat :=
  if timeline.moments.head?.map (·.step) = some 0 then 1 else 0

/-- A timeline that can be written as a whole. -/
structure Encodable (timeline : Timeline) : Prop where
  distinct : (timeline.nodes.keys.map NodeName.label).Nodup
  shiftable : ∀ moment ∈ timeline.moments, moment.step.toNat + timeline.delay < UInt64.size
  alternating : ∀ pair,
    Change.Alternating ((timeline.marksOf pair).map fun mark => mark.event.change)

/-- No label breaks the line that it is written on. -/
structure Unbroken (timeline : Timeline) : Prop where
  nodes : ∀ node ∈ timeline.nodes.keys, '\n' ∉ node.label.toList
  events : ∀ event ∈ timeline.events,
    '\n' ∉ event.pair.low.label.toList ∧ '\n' ∉ event.pair.high.label.toList

theorem toNat_offset (timeline : Timeline) : timeline.offset.toNat = timeline.delay := by
  rw [offset, delay]
  cases timeline.moments with
  | nil => rfl
  | cons first rest =>
      by_cases zero : first.step = 0 <;> simp [zero]

theorem sharedLabel?_eq_none_iff (timeline : Timeline) :
    timeline.sharedLabel? = none ↔ (timeline.nodes.keys.map NodeName.label).Nodup := by
  constructor
  · intro distinct
    exact List.Nodup.map_on (fun first firstMember second secondMember =>
      label_injective_of_sharedLabel? distinct firstMember secondMember)
      timeline.nodes.keys_nodup
  · intro distinct
    exact sharedLabel?_eq_none_of_injective fun first firstMember second secondMember same =>
      List.inj_on_of_nodup_map distinct firstMember secondMember same

theorem writable_iff (timeline : Timeline) (graphName : String) :
    timeline.Writable graphName ↔
      Text.isToken graphName.toList = true ∧ timeline.Encodable := by
  constructor
  · rintro ⟨token, distinct, shiftable, alternates⟩
    rw [toNat_offset] at shiftable
    exact ⟨token, timeline.sharedLabel?_eq_none_iff.mp distinct, shiftable,
      alternates_iff.mp alternates⟩
  · rintro ⟨token, distinct, shiftable, alternating⟩
    rw [← toNat_offset] at shiftable
    exact ⟨token, timeline.sharedLabel?_eq_none_iff.mpr distinct, shiftable,
      alternates_iff.mpr alternating⟩

theorem isToken_iff_not_refused (graphName : String) : Text.isToken graphName.toList = true ↔
    ¬(graphName = "" ∨ ∃ character ∈ graphName.toList, Text.isBlank character = true) := by
  simp only [Text.isToken_iff, ne_eq, String.toList_eq_nil_iff, not_or, not_exists, not_and,
    Bool.not_eq_true]

/-- A name that is a token leaves only broken rules as reasons not to write a timeline. -/
theorem outcome_of_token {timeline : Timeline} {graphName : String}
    (token : Text.isToken graphName.toList = true) :
    (∃ tally, (timeline.manuscript graphName).outcome = .ok tally) ∨
      ∃ cause, (timeline.manuscript graphName).outcome = .error (.invariant cause) := by
  rw [manuscript, token]
  simp only [Bool.not_true, Bool.false_eq_true, if_false]
  cases timeline.sharedLabel? with
  | some value => exact Or.inr ⟨_, rfl⟩
  | none =>
      dsimp only
      cases (Scribe.writeEntries { offset := timeline.offset } timeline.entries).2 with
      | error cause => exact Or.inr ⟨cause, rfl⟩
      | ok scribe => exact Or.inl ⟨_, rfl⟩

theorem outcome_of_not_token {timeline : Timeline} {graphName : String}
    (token : ¬Text.isToken graphName.toList = true) :
    (timeline.manuscript graphName).outcome = .error (.config (.graphName graphName)) := by
  rw [Bool.not_eq_true] at token
  rw [manuscript, token]
  rfl

section Outcome

variable {timeline : Timeline} {graphName : String}
  (few : additions timeline.events < UInt32.size)
include few

/-- What is written is the tally of the timeline and every line. -/
theorem manuscript_of_ok {tally : Tally}
    (done : (timeline.manuscript graphName).outcome = .ok tally) :
    timeline.Writable graphName ∧ tally = timeline.tally ∧
      (timeline.manuscript graphName).text = joinLines (timeline.words graphName) := by
  have text : timeline.graphText graphName = .ok (timeline.manuscript graphName).text := by
    rw [graphText, done]
    rfl
  have writable := writable_of_graphText few text
  rw [graphText_of_writable few writable] at text
  rw [manuscript_of_writable few writable] at done
  exact ⟨writable, (Except.ok.inj done).symm, (Except.ok.inj text).symm⟩

theorem exists_outcome_ok_iff :
    (∃ tally, (timeline.manuscript graphName).outcome = .ok tally) ↔
      timeline.Writable graphName := by
  constructor
  · rintro ⟨tally, done⟩
    exact (manuscript_of_ok few done).1
  · intro writable
    rw [manuscript_of_writable few writable]
    exact ⟨_, rfl⟩

end Outcome

/-! ## Written lines -/

theorem feed_not_mem_lineText {words : List String}
    (unbroken : ∀ word ∈ words, '\n' ∉ word.toList) : '\n' ∉ (lineText words).toList := by
  rw [toList_lineText]
  exact Text.not_mem_sentence (by decide) (List.forall_mem_map.mpr unbroken)

theorem feed_not_mem_of_isToken {word : String} (token : Text.isToken word.toList = true) :
    '\n' ∉ word.toList :=
  (Text.Firm.of_isToken token).unbroken

theorem feed_not_mem_namedWords (edge : Nat) {event : Event}
    (unbroken : '\n' ∉ event.pair.low.label.toList ∧ '\n' ∉ event.pair.high.label.toList) :
    ∀ word ∈ namedWords edge event, '\n' ∉ word.toList := by
  have edgeToken := feed_not_mem_of_isToken (isToken_edgeName edge)
  have actionToken := fun action : Action => feed_not_mem_of_isToken action.isToken_word
  rw [namedWords]
  split
  · simp only [List.forall_mem_cons]
    exact ⟨actionToken _, edgeToken, unbroken.1, unbroken.2, by simp⟩
  · simp only [List.forall_mem_cons]
    exact ⟨actionToken _, edgeToken, by simp⟩

/-- No line holds a line feed if no label does. -/
theorem Unbroken.words {timeline : Timeline} (unbroken : timeline.Unbroken) {graphName : String}
    (token : Text.isToken graphName.toList = true) :
    ∀ words ∈ timeline.words graphName, '\n' ∉ (lineText words).toList := by
  have stepUnbroken : ∀ step, ∀ word ∈ stepWords step, '\n' ∉ word.toList :=
    fun step word member => feed_not_mem_of_isToken (isToken_of_mem_stepWords step word member)
  intro words member
  refine feed_not_mem_lineText ?_
  rw [words_eq, List.mem_cons, List.mem_cons, declaredWords, List.mem_append, List.mem_cons]
    at member
  rcases member with rfl | rfl | (rfl | inNodes) | inBody
  · decide
  · simp only [List.forall_mem_cons]
    exact ⟨feed_not_mem_of_isToken token, feed_not_mem_of_isToken (Text.isToken_toString _),
      feed_not_mem_of_isToken (Text.isToken_toString _), by simp⟩
  · exact stepUnbroken 0
  · obtain ⟨node, nodeMember, rfl⟩ := List.mem_map.mp inNodes
    simp only [List.forall_mem_cons]
    exact ⟨by decide, unbroken.nodes node nodeMember, by simp⟩
  · rcases exists_of_mem_bodyWords inBody with ⟨step, rfl⟩ | ⟨event, eventMember, edge, rfl⟩
    · exact stepUnbroken step
    · exact feed_not_mem_namedWords edge (unbroken.events event eventMember)

/-- Between the line feeds of what is written stand the lines. -/
theorem Unbroken.splitAt_joinLines {timeline : Timeline} (unbroken : timeline.Unbroken)
    {graphName : String} (token : Text.isToken graphName.toList = true) :
    Text.splitAt (· == '\n') (joinLines (timeline.words graphName)).toList =
      [formatTag.toList,
        s!"{graphName} {timeline.tally.steps} {timeline.tally.events}".toList] ++
        (timeline.declaredWords.map fun words => (lineText words).toList) ++ [[]] := by
  have cut := Text.splitAt_lines (List.forall_mem_map.mpr (unbroken.words token))
  rw [List.flatMap_map] at cut
  rw [toList_joinLines, List.flatMap_map, headerLine_eq]
  simp only [toList_lineText] at cut ⊢
  rw [cut, words_eq]
  rfl

/-- Under a name that is no token a timeline is refused.  Under every other name it is written as a
whole exactly if it is encodable, and otherwise it breaks a rule.  Once it is written, the tally
counts the lines after the header, and the header line shows the tally. -/
theorem write_ok_iff_encodable {timeline : Timeline}
    (few : additions timeline.events < UInt32.size) (graphName : String) (earlier : List UInt8) :
    let result := timeline.write graphName ⟨none, earlier⟩
    let refused := graphName = "" ∨ ∃ character ∈ graphName.toList, Text.isBlank character = true
    (refused → result.1 = .error (.config (.graphName graphName))) ∧
      (¬refused → ((∃ tally, result.1 = .ok tally) ↔ timeline.Encodable) ∧
        (¬timeline.Encodable → ∃ cause, result.1 = .error (.invariant cause))) ∧
      ∀ tally, result.1 = .ok tally → timeline.Unbroken →
        ∃ text body, result.2.written = earlier ++ utf8 text ∧
          Text.splitAt (· == '\n') text.toList =
            [formatTag.toList, s!"{graphName} {tally.steps} {tally.events}".toList] ++ body ++
              [[]] ∧
          tally.Counts body := by
  intro result refused
  have resultEq : result = _ := write_unbounded timeline graphName earlier
  have token_iff : Text.isToken graphName.toList = true ↔ ¬refused :=
    isToken_iff_not_refused graphName
  rw [resultEq, ← token_iff]
  refine ⟨fun isRefused => outcome_of_not_token fun token => token_iff.mp token isRefused,
    fun token => ⟨?_, fun broken => ?_⟩, ?_⟩
  · rw [exists_outcome_ok_iff few, writable_iff, and_iff_right token]
  · refine (outcome_of_token token).resolve_left fun done => broken ?_
    exact ((writable_iff _ _).mp ((exists_outcome_ok_iff few).mp done)).2
  · intro tally done unbroken
    obtain ⟨writable, rfl, text⟩ := manuscript_of_ok few done
    exact ⟨_, _, by rw [text], unbroken.splitAt_joinLines writable.token, timeline.tally_counts⟩

/-- Steps that begin with zero, are not sorted and occur twice, and a pair that stays connected. -/
theorem write_ok_iff_encodable_unsorted :
    let pair : Pair NodeName := .of (.number 7) (.text "anna b")
    let timeline : Timeline := ⟨Table.ofList [(.number 7, ()), (.text "anna b", ()),
      (.text "carl", ())], [⟨0, [⟨.add, pair⟩]⟩, ⟨9, [⟨.delete, pair⟩]⟩, ⟨3, [⟨.add, pair⟩]⟩,
        ⟨3, []⟩]⟩
    let graphName := "g"
    let tally : Tally := ⟨5, 6, 2⟩
    let result := timeline.write graphName ⟨none, [33]⟩
    additions timeline.events < UInt32.size ∧ result.1 = .ok tally ∧ timeline.Encodable ∧
      timeline.Unbroken ∧
      ∃ text body, result.2.written = [33] ++ utf8 text ∧
        Text.splitAt (· == '\n') text.toList =
          [formatTag.toList, s!"{graphName} {tally.steps} {tally.events}".toList] ++ body ++ [[]] ∧
        tally.Counts body := by
  intro pair timeline graphName tally result
  have few : additions timeline.events < UInt32.size := by decide
  have done : result.1 = .ok tally := by decide +kernel
  have unbroken : timeline.Unbroken := ⟨by decide +kernel, by decide +kernel⟩
  have named := (isToken_iff_not_refused graphName).mp (by decide)
  obtain ⟨-, outcome, written⟩ := write_ok_iff_encodable few graphName [33]
  exact ⟨few, done, (outcome named).1.mp ⟨tally, done⟩, unbroken, written tally done unbroken⟩

end Timeline

end ContactReplay
