import ContactReplay.Proofs.GraphStream.Writing

/-!
# Reading what has been written

Line by line a reader finds the words that were written and takes from them what the transcript
says.  `read_joinLines_words` gives the whole document of a timeline whose labels are legible:
tokens that are no directions, different at the two ends of an event.
-/

namespace ContactReplay

/-! ## Legible words -/

theorem Text.words_sentence {words : List String}
    (tokens : ∀ word ∈ words, Text.isToken word.toList = true) :
    Text.words (Text.sentence (words.map String.toList)) = words := by
  have characters : ∀ word ∈ words.map String.toList, Text.isToken word = true := by
    simpa using tokens
  rw [Text.words, Text.tokens_sentence characters, List.map_map]
  simp [Function.comp_def]

theorem Text.isBlank_of_isDigit {character : Char} (digit : character.isDigit = true) :
    Text.isBlank character = false := by
  simp only [Char.isDigit, Bool.and_eq_true, decide_eq_true_eq, ge_iff_le, UInt32.le_iff_toNat_le]
    at digit
  obtain ⟨fromZero, toNine⟩ := digit
  have lower : 48 ≤ character.toNat := fromZero
  have upper : character.toNat ≤ 57 := toNine
  simp only [isBlank, blankRanges, List.any_cons, List.any_nil, Bool.or_eq_false_iff,
    Bool.and_eq_false_iff, decide_eq_false_iff_not, Bool.or_false]
  omega

theorem Text.isToken_toDigits (value : Nat) : Text.isToken (Nat.toDigits 10 value) = true :=
  Text.isToken_iff.mpr ⟨Nat.toDigits_ne_nil, fun _ member =>
    Text.isBlank_of_isDigit (Nat.isDigit_of_mem_toDigits (by decide) (by decide) member)⟩

theorem Text.isToken_toString (value : Nat) : Text.isToken (toString value).toList = true := by
  have digits : (toString value).toList = Nat.toDigits 10 value := Nat.toList_repr
  rw [digits]
  exact Text.isToken_toDigits value

theorem Action.isToken_word (action : Action) : Text.isToken action.word.toList = true := by
  cases action <;> decide

namespace GraphStream

theorem toList_edgeName (number : Nat) :
    (edgeName number).toList = 'e' :: Nat.toDigits 10 number := by
  have digits : (toString number).toList = Nat.toDigits 10 number := Nat.toList_repr
  simp only [edgeName, toString_string, String.toList_append, toList_edge, digits]
  rfl

theorem isToken_edgeName (number : Nat) : Text.isToken (edgeName number).toList = true := by
  have digits := (Text.isToken_iff.mp (Text.isToken_toDigits number)).2
  rw [toList_edgeName, Text.isToken_iff]
  refine ⟨by simp, fun character member => ?_⟩
  rcases List.mem_cons.mp member with rfl | inDigits
  · decide
  · exact digits character inDigits

theorem edgeName_injective {first second : Nat} (same : edgeName first = edgeName second) :
    first = second := by
  have texts := congrArg String.toList same
  rw [toList_edgeName, toList_edgeName] at texts
  have digits := (List.cons.inj texts).2
  have values := congrArg (fun text => Nat.ofDigitChars 10 text 0) digits
  simpa only [Nat.ofDigitChars_ten_toDigits] using values

theorem edgeName_ne_direction (number : Nat) : edgeName number ≠ ">" ∧ edgeName number ≠ "<" := by
  constructor <;>
  · intro same
    have texts := congrArg String.toList same
    rw [toList_edgeName] at texts
    exact absurd (List.cons.inj texts).1 (by decide)

end GraphStream

/-! ## Legible timelines -/

/-- An event whose line can be read: its labels are tokens, none of them a direction, and they
differ. -/
structure Event.Legible (event : Event) : Prop where
  low : Text.isToken event.pair.low.label.toList = true
  high : Text.isToken event.pair.high.label.toList = true
  undirected : ∀ label ∈ [event.pair.low.label, event.pair.high.label],
    label ≠ ">" ∧ label ≠ "<"
  different : event.pair.low.label ≠ event.pair.high.label

/-- A timeline whose lines can all be read. -/
structure Timeline.Legible (timeline : Timeline) : Prop where
  nodes : ∀ node ∈ timeline.nodes.keys, Text.isToken node.label.toList = true
  events : ∀ event ∈ timeline.events, event.Legible

instance (event : Event) : Decidable event.Legible :=
  decidable_of_iff
    (Text.isToken event.pair.low.label.toList = true ∧
      Text.isToken event.pair.high.label.toList = true ∧
      (∀ label ∈ [event.pair.low.label, event.pair.high.label], label ≠ ">" ∧ label ≠ "<") ∧
      event.pair.low.label ≠ event.pair.high.label)
    ⟨fun ⟨low, high, undirected, different⟩ => ⟨low, high, undirected, different⟩,
      fun ⟨low, high, undirected, different⟩ => ⟨low, high, undirected, different⟩⟩

instance (timeline : Timeline) : Decidable timeline.Legible :=
  decidable_of_iff
    ((∀ node ∈ timeline.nodes.keys, Text.isToken node.label.toList = true) ∧
      ∀ event ∈ timeline.events, event.Legible)
    ⟨fun ⟨nodes, events⟩ => ⟨nodes, events⟩, fun ⟨nodes, events⟩ => ⟨nodes, events⟩⟩

namespace GraphStream

/-! ## Named edges -/

/-- The words of the line of an event that names the edge with a given number. -/
def namedWords (edge : Nat) (event : Event) : List String :=
  match event.change with
  | .add =>
      [Action.addEdge.word, edgeName edge, event.pair.low.label, event.pair.high.label]
  | .delete => [Action.deleteEdge.word, edgeName edge]

/-- What the line of an event says that names the edge with a given number. -/
def namedLine (edge : Nat) (event : Event) (number : Nat) : EdgeLine :=
  match event.change with
  | .add => .add (edgeName edge) event.pair.low.label event.pair.high.label number
  | .delete => .delete (edgeName edge) number

/-- A transcript names some edge in each of its lines. -/
theorem exists_named (past : List Event) (event : Event) :
    ∃ edge, wordsOf past event = namedWords edge event ∧
      ∀ number, lineOf past event number = namedLine edge event number := by
  obtain ⟨change, pair⟩ := event
  cases change with
  | add => exact ⟨additions past, rfl, fun _ => rfl⟩
  | delete => exact ⟨(openNumber? pair past).getD 0, rfl, fun _ => rfl⟩

/-- Every line of the body begins a step or names some edge of an event. -/
theorem exists_of_mem_bodyWords {offset : UInt64} {past : List Event} {moments : List Moment}
    {words : List String} (member : words ∈ bodyWords offset past moments) :
    (∃ step, words = stepWords step) ∨
      ∃ event ∈ moments.flatMap (·.events), ∃ edge, words = namedWords edge event := by
  have named : ∀ (events earlier : List Event), words ∈ eventWords earlier events →
      ∃ event ∈ events, ∃ edge, words = namedWords edge event := by
    intro events
    induction events with
    | nil => exact fun _ absent => nomatch absent
    | cons event rest inductionHypothesis =>
        intro earlier inEvents
        rcases List.mem_cons.mp inEvents with rfl | later
        · obtain ⟨edge, named, -⟩ := exists_named earlier event
          exact ⟨event, List.mem_cons_self, edge, named⟩
        · obtain ⟨other, otherMember, found⟩ := inductionHypothesis _ later
          exact ⟨other, List.mem_cons_of_mem _ otherMember, found⟩
  induction moments generalizing past with
  | nil => cases member
  | cons moment rest inductionHypothesis =>
      rw [bodyWords, List.cons_append, List.mem_cons, List.mem_append] at member
      rw [List.flatMap_cons]
      rcases member with begins | inMoment | later
      · exact Or.inl ⟨_, begins⟩
      · obtain ⟨event, eventMember, found⟩ := named _ _ inMoment
        exact Or.inr ⟨event, List.mem_append_left _ eventMember, found⟩
      · refine (inductionHypothesis later).imp_right ?_
        rintro ⟨event, eventMember, found⟩
        exact ⟨event, List.mem_append_right _ eventMember, found⟩

theorem isToken_of_mem_namedWords {event : Event} (legible : event.Legible) (edge : Nat) :
    ∀ word ∈ namedWords edge event, Text.isToken word.toList = true := by
  rw [namedWords]
  split
  · simp [Action.isToken_word, isToken_edgeName, legible.low, legible.high]
  · simp [Action.isToken_word, isToken_edgeName]

theorem isToken_of_mem_stepWords (step : UInt64) :
    ∀ word ∈ stepWords step, Text.isToken word.toList = true := by
  have number : Text.isToken (toString step).toList = true := Text.isToken_toString step.toNat
  simp [stepWords, Action.isToken_word, number]

/-! ## Reading single lines -/

theorem readHeader_sentence {graphName : String} (token : Text.isToken graphName.toList = true)
    (steps events : UInt64) :
    readHeader (Text.sentence
        ([graphName, toString steps.toNat, toString events.toNat].map String.toList)) =
      .ok ⟨graphName, steps, events⟩ := by
  have tokens : ∀ word ∈ [graphName, toString steps.toNat, toString events.toNat],
      Text.isToken word.toList = true := by
    simp [token, Text.isToken_toDigits]
  rw [readHeader, Text.words_sentence tokens]
  simp only [readCount, Text.numeral?_repr]
  rfl

theorem readStepNumber_stepWords (step : UInt64) :
    readStepNumber (Text.sentence ((stepWords step).map String.toList)) = .ok step := by
  have numeral : Text.numeral? (toString step).toList = some step := Text.numeral?_repr step
  rw [readStepNumber, Text.words_sentence (isToken_of_mem_stepWords step), stepWords]
  dsimp only
  rw [if_pos rfl, numeral]

theorem readSetup_stepWords :
    readSetup (Text.sentence ((stepWords 0).map String.toList)) = .ok () := by
  have begins : Action.step.word.toList.isPrefixOf
      (Text.sentence ((stepWords 0).map String.toList)) = true := rfl
  rw [readSetup, if_pos begins, readStepNumber_stepWords]
  rfl

namespace Draft

theorem openStep_stepWords {draft : Draft} {step : UInt64} (later : draft.currentStep < step)
    (number : Nat) :
    draft.openStep ⟨number, Text.sentence ((stepWords step).map String.toList)⟩ =
      .ok { draft with steps := ⟨step, number, []⟩ :: draft.steps } := by
  rw [openStep]
  dsimp only
  rw [readStepNumber_stepWords]
  have notBefore : ¬ step ≤ draft.currentStep := UInt64.not_le.mpr later
  simp only [bind, Except.bind, notBefore, if_false]
  rfl

theorem readLine_stepWords {draft : Draft} {step : UInt64} (later : draft.currentStep < step)
    (number : Nat) :
    draft.readLine ⟨number, Text.sentence ((stepWords step).map String.toList)⟩ =
      .ok { draft with steps := ⟨step, number, []⟩ :: draft.steps } := by
  have words := Text.words_sentence (isToken_of_mem_stepWords step)
  rw [readLine, words, ← openStep_stepWords later number]
  simp only [stepWords]
  cases draft.steps with
  | nil => simp only [readSetupLine, Action.ofWord?_word]
  | cons current earlier => simp only [readStepLine, Action.ofWord?_word]

theorem readAddition_eq {edge first second : String} (line : List Char) (number : Nat)
    (undirected : ∀ operand ∈ [edge, first, second], operand ≠ ">" ∧ operand ≠ "<")
    (different : first ≠ second) :
    readAddition line number [edge, first, second] = .ok (.add edge first second number) := by
  have noDirection : ¬ (">" ∈ [edge, first, second] ∨ "<" ∈ [edge, first, second]) := by
    rintro (forth | back)
    · exact (undirected _ forth).1 rfl
    · exact (undirected _ back).2 rfl
  rw [readAddition, if_neg noDirection]
  exact if_neg different

theorem readLine_namedWords (header : Header) (nodes : List String) (current : DocumentStep)
    (earlier : List DocumentStep) {event : Event} (legible : event.Legible) (edge number : Nat) :
    readLine ⟨header, nodes, current :: earlier⟩
        ⟨number, Text.sentence ((namedWords edge event).map String.toList)⟩ =
      .ok ⟨header, nodes,
        { current with lines := namedLine edge event number :: current.lines } :: earlier⟩ := by
  have words := Text.words_sentence (isToken_of_mem_namedWords legible edge)
  rw [readLine, words, namedWords, namedLine]
  cases event.change with
  | add =>
      have undirected : ∀ operand ∈ [edgeName edge, event.pair.low.label, event.pair.high.label],
          operand ≠ ">" ∧ operand ≠ "<" :=
        List.forall_mem_cons.mpr ⟨edgeName_ne_direction edge, legible.undirected⟩
      simp only [readStepLine, Action.ofWord?_word]
      rw [readAddition_eq _ _ undirected legible.different]
      rfl
  | delete =>
      simp only [readStepLine, Action.ofWord?_word, readDeletion]
      rfl

theorem readLine_node (header : Header) (nodes : List String) {label : String}
    (token : Text.isToken label.toList = true) (number : Nat) :
    readLine ⟨header, nodes, []⟩
        ⟨number, Text.sentence (([Action.addNode.word, label] : List String).map String.toList)⟩ =
      .ok ⟨header, label :: nodes, []⟩ := by
  have tokens : ∀ word ∈ [Action.addNode.word, label], Text.isToken word.toList = true := by
    simp [Action.isToken_word, token]
  rw [readLine, Text.words_sentence tokens]
  simp only [readSetupLine, Action.ofWord?_word]

end Draft

/-! ## Reading many lines -/

/-- Written lines, the first of them with a given number. -/
def wordLines (number : Nat) (lines : List (List String)) : List Text.Line :=
  Text.numberedLines number (lines.map fun words => words.map String.toList)

theorem wordLines_append (number : Nat) (first second : List (List String)) :
    wordLines number (first ++ second) =
      wordLines number first ++ wordLines (number + first.length) second := by
  rw [wordLines, List.map_append, Text.numberedLines_append, List.length_map]
  rfl

namespace Stage

theorem readLine_body {draft next : Draft} {line : Text.Line}
    (read : draft.readLine line = .ok next) :
    Stage.readLine (.body draft) line = .ok (.body next) := by
  rw [Stage.readLine, readText, read]
  rfl

/-- Read lines one after the other. -/
def readLines (stage : Stage) (lines : List Text.Line) : Except Error Stage :=
  lines.foldlM Stage.readLine stage

theorem readLines_cons {stage next : Stage} {line : Text.Line}
    (read : stage.readLine line = .ok next) (rest : List Text.Line) :
    stage.readLines (line :: rest) = next.readLines rest := by
  rw [readLines, List.foldlM_cons, read]
  rfl

theorem readLines_append {stage next : Stage} {first : List Text.Line}
    (read : stage.readLines first = .ok next) (second : List Text.Line) :
    stage.readLines (first ++ second) = next.readLines second := by
  rw [readLines] at read
  rw [readLines, List.foldlM_append, read]
  rfl

theorem readLines_eventWords (header : Header) (nodes : List String) (current : DocumentStep)
    (earlier : List DocumentStep) {events : List Event}
    (legible : ∀ event ∈ events, event.Legible) (past : List Event) (number : Nat) :
    readLines (.body ⟨header, nodes, current :: earlier⟩)
        (wordLines number (eventWords past events)) =
      .ok (.body ⟨header, nodes,
        { current with lines := (eventLines past number events).reverse ++ current.lines } ::
          earlier⟩) := by
  induction events generalizing past number current with
  | nil => rfl
  | cons event rest inductionHypothesis =>
      obtain ⟨edge, words, line⟩ := exists_named past event
      have read := readLine_body (Draft.readLine_namedWords header nodes current earlier
        (legible event List.mem_cons_self) edge number)
      rw [← words, ← line] at read
      rw [eventWords]
      apply (readLines_cons read _).trans
      refine (inductionHypothesis _
        (fun other member => legible other (List.mem_cons_of_mem _ member))
        (event :: past) (number + 1)).trans ?_
      simp [eventLines]

theorem readLines_nodes (header : Header) (nodes : List String) {labels : List String}
    (tokens : ∀ label ∈ labels, Text.isToken label.toList = true) (number : Nat) :
    readLines (.body ⟨header, nodes, []⟩)
        (wordLines number (labels.map fun label => [Action.addNode.word, label])) =
      .ok (.body ⟨header, labels.reverse ++ nodes, []⟩) := by
  induction labels generalizing number nodes with
  | nil => rfl
  | cons label rest inductionHypothesis =>
      have read := readLine_body
        (Draft.readLine_node header nodes (tokens label List.mem_cons_self) number)
      apply (readLines_cons read _).trans
      refine (inductionHypothesis (label :: nodes)
        (fun other member => tokens other (List.mem_cons_of_mem _ member)) (number + 1)).trans ?_
      simp

/-- The lines of moments are added to the document, whatever has been read before them. -/
theorem readLines_bodyWords {draft : Draft} {offset : UInt64} {moments : List Moment}
    (above : ∀ moment ∈ moments, draft.currentStep < moment.step + offset)
    (ascending : moments.Pairwise fun earlier later =>
      earlier.step + offset < later.step + offset)
    (legible : ∀ event ∈ moments.flatMap (·.events), event.Legible) (past : List Event)
    (number : Nat) :
    ∃ next, readLines (.body draft) (wordLines number (bodyWords offset past moments)) =
        .ok (.body next) ∧
      next.document = { draft.document with
        steps := draft.document.steps ++ documentSteps offset past number moments } := by
  induction moments generalizing draft past number with
  | nil => exact ⟨draft, rfl, by simp [documentSteps]⟩
  | cons moment rest inductionHypothesis =>
      obtain ⟨before, restAscending⟩ := List.pairwise_cons.mp ascending
      rw [List.flatMap_cons, List.forall_mem_append] at legible
      have stepRead := readLine_body
        (Draft.readLine_stepWords (above moment List.mem_cons_self) number)
      have eventsRead := readLines_eventWords draft.header draft.nodes
        ⟨moment.step + offset, number, []⟩ draft.steps legible.1 past (number + 1)
      rw [List.append_nil] at eventsRead
      obtain ⟨next, restRead, document⟩ := @inductionHypothesis
        ⟨draft.header, draft.nodes,
          ⟨moment.step + offset, number, (eventLines past (number + 1) moment.events).reverse⟩ ::
            draft.steps⟩
        before restAscending legible.2 (moment.events.reverse ++ past)
        (number + 1 + moment.events.length)
      refine ⟨next, ?_, ?_⟩
      · rw [bodyWords, List.cons_append]
        apply (readLines_cons stepRead _).trans
        rw [← wordLines, wordLines_append, eventWords_length]
        exact (readLines_append eventsRead _).trans restRead
      · rw [document]
        simp [Draft.document, documentSteps]

theorem readLine_formatTag (number : Nat) :
    Stage.readLine .blank
        ⟨number, Text.sentence (([formatTag] : List String).map String.toList)⟩ =
      .ok (.tagged number) := by
  have tag : String.ofList (Text.sentence (([formatTag] : List String).map String.toList)) =
      formatTag := String.ofList_toList
  rw [Stage.readLine, readText]
  dsimp only
  rw [if_pos tag]
  rfl

/-- The first three lines give the header. -/
theorem readLines_opening {graphName : String} (token : Text.isToken graphName.toList = true)
    (steps events : UInt64) :
    readLines .blank (wordLines 1
        [[formatTag], [graphName, toString steps.toNat, toString events.toNat], stepWords 0]) =
      .ok (.body { header := ⟨graphName, steps, events⟩ }) := by
  have headerRead : Stage.readLine (.tagged 1) ⟨2, Text.sentence
      ([graphName, toString steps.toNat, toString events.toNat].map String.toList)⟩ =
        .ok (.headed 2 ⟨graphName, steps, events⟩) := by
    rw [Stage.readLine, readText, readHeader_sentence token]
    rfl
  have setupRead : Stage.readLine (.headed 2 ⟨graphName, steps, events⟩)
      ⟨3, Text.sentence ((stepWords 0).map String.toList)⟩ =
        .ok (.body { header := ⟨graphName, steps, events⟩ }) := by
    rw [Stage.readLine, readText, readSetup_stepWords]
    rfl
  apply (readLines_cons (readLine_formatTag 1) _).trans
  apply (readLines_cons headerRead _).trans
  exact readLines_cons setupRead _

/-- The lines before the first step give the header and the nodes. -/
theorem readLines_preamble {graphName : String} (token : Text.isToken graphName.toList = true)
    (steps events : UInt64) {labels : List String}
    (tokens : ∀ label ∈ labels, Text.isToken label.toList = true) :
    readLines .blank (wordLines 1
        ([[formatTag], [graphName, toString steps.toNat, toString events.toNat], stepWords 0] ++
          labels.map fun label => [Action.addNode.word, label])) =
      .ok (.body ⟨⟨graphName, steps, events⟩, labels.reverse, []⟩) := by
  have nodesRead := readLines_nodes ⟨graphName, steps, events⟩ [] tokens 4
  rw [List.append_nil] at nodesRead
  rw [wordLines_append]
  exact (readLines_append (readLines_opening token steps events) _).trans nodesRead

end Stage

end GraphStream

/-! ## Whole timelines -/

namespace Timeline

open GraphStream

/-! ### Steps as they are written -/

theorem toNat_shift {step offset : UInt64} (fits : step.toNat + offset.toNat < UInt64.size) :
    (step + offset).toNat = step.toNat + offset.toNat := by
  rw [UInt64.toNat_add]
  exact Nat.mod_eq_of_lt fits

theorem shifted_ascending {offset : UInt64} {moments : List Moment}
    (shiftable : ∀ moment ∈ moments, moment.step.toNat + offset.toNat < UInt64.size)
    (ascending : moments.Pairwise fun earlier later => earlier.step < later.step) :
    moments.Pairwise fun earlier later => earlier.step + offset < later.step + offset := by
  refine ascending.imp_of_mem fun {earlier later} earlierMember laterMember before => ?_
  rw [UInt64.lt_iff_toNat_lt] at before ⊢
  rw [toNat_shift (shiftable earlier earlierMember), toNat_shift (shiftable later laterMember)]
  exact Nat.add_lt_add_right before _

/-- No step is written with the number of the setup. -/
theorem shifted_pos {timeline : Timeline}
    (shiftable : ∀ moment ∈ timeline.moments,
      moment.step.toNat + timeline.offset.toNat < UInt64.size)
    (ascending : timeline.moments.Pairwise fun earlier later => earlier.step < later.step) :
    ∀ moment ∈ timeline.moments, 0 < moment.step + timeline.offset := by
  intro moment member
  rw [UInt64.lt_iff_toNat_lt, toNat_shift (shiftable moment member), offset]
  cases shape : timeline.moments with
  | nil => simp [shape] at member
  | cons first rest =>
      dsimp only
      split
      · rw [show (1 : UInt64).toNat = 1 from rfl]
        exact Nat.succ_pos _
      · rename_i nonzero
        rw [shape] at ascending member
        have firstPos : 0 < first.step.toNat := by
          rw [Nat.pos_iff_ne_zero]
          exact fun zero => nonzero (UInt64.toNat_inj.mp zero)
        rcases List.mem_cons.mp member with rfl | later
        · exact firstPos
        · have before := UInt64.lt_iff_toNat_lt.mp (List.rel_of_pairwise_cons ascending later)
          exact Nat.lt_of_lt_of_le (Nat.lt_trans firstPos before) (Nat.le_add_right _ _)

/-! ### Lines as they are found -/

theorem isSentence_of_tokens {word : String} {rest : List String}
    (tokens : ∀ other ∈ word :: rest, Text.isToken other.toList = true)
    (spoken : word.toList.head? ≠ some '#') :
    Text.IsSentence ((word :: rest).map String.toList) where
  tokens := by simpa using tokens
  nonempty := by simp
  spoken := by
    have nonempty := (Text.isToken_iff.mp (tokens word List.mem_cons_self)).1
    rwa [List.map_cons, Text.head?_sentence nonempty]

theorem head?_word_ne (action : Action) : action.word.toList.head? ≠ some '#' := by
  cases action <;> decide

theorem isSentence_namedWords {event : Event} (legible : event.Legible) (edge : Nat) :
    Text.IsSentence ((namedWords edge event).map String.toList) := by
  have tokens := isToken_of_mem_namedWords legible edge
  rw [namedWords] at tokens ⊢
  split at tokens
  · exact isSentence_of_tokens tokens (head?_word_ne .addEdge)
  · exact isSentence_of_tokens tokens (head?_word_ne .deleteEdge)

theorem isSentence_of_mem_bodyWords {offset : UInt64} {moments : List Moment}
    (legible : ∀ event ∈ moments.flatMap (·.events), event.Legible) (past : List Event) :
    ∀ words ∈ bodyWords offset past moments, Text.IsSentence (words.map String.toList) := by
  intro words member
  rcases exists_of_mem_bodyWords member with ⟨step, rfl⟩ | ⟨event, eventMember, edge, rfl⟩
  · exact isSentence_of_tokens (isToken_of_mem_stepWords _) (head?_word_ne .step)
  · exact isSentence_namedWords (legible event eventMember) edge

section Whole

variable {timeline : Timeline} {graphName : String}

theorem isSentence_of_mem_preambleWords
    (tokens : ∀ node ∈ timeline.nodes.keys, Text.isToken node.label.toList = true)
    (token : Text.isToken graphName.toList = true) (spoken : graphName.toList.head? ≠ some '#') :
    ∀ words ∈ timeline.preambleWords graphName, Text.IsSentence (words.map String.toList) := by
  have header : ∀ word ∈ [graphName, toString timeline.stepCount, toString timeline.lineCount],
      Text.isToken word.toList = true := by
    simp [token, Text.isToken_toDigits]
  have tag : ∀ word ∈ [formatTag], Text.isToken word.toList = true := by
    simp only [List.mem_singleton, forall_eq]
    decide
  rw [preambleWords, List.forall_mem_append, List.forall_mem_cons, List.forall_mem_cons,
    List.forall_mem_singleton, List.forall_mem_map]
  refine ⟨⟨?_, ?_, ?_⟩, fun node member => ?_⟩
  · exact isSentence_of_tokens tag (by decide)
  · exact isSentence_of_tokens header spoken
  · exact isSentence_of_tokens (isToken_of_mem_stepWords 0) (head?_word_ne .step)
  · have nodeTokens : ∀ word ∈ [Action.addNode.word, node.label],
        Text.isToken word.toList = true := by
      simp [Action.isToken_word, tokens node member]
    exact isSentence_of_tokens nodeTokens (head?_word_ne .addNode)

theorem isSentence_of_mem_words (legible : timeline.Legible)
    (token : Text.isToken graphName.toList = true) (spoken : graphName.toList.head? ≠ some '#') :
    ∀ words ∈ timeline.words graphName, Text.IsSentence (words.map String.toList) :=
  List.forall_mem_append.mpr ⟨isSentence_of_mem_preambleWords legible.nodes token spoken,
    isSentence_of_mem_bodyWords legible.events []⟩

/-- The document of a timeline under the name of a graph. -/
def document (timeline : Timeline) (graphName : String) : Document where
  header := ⟨graphName, UInt64.ofNat timeline.stepCount, UInt64.ofNat timeline.lineCount⟩
  nodes := timeline.nodes.keys.map NodeName.label
  steps := documentSteps timeline.offset [] (4 + timeline.nodes.size) timeline.moments

theorem toList_joinLines (lines : List (List String)) :
    (joinLines lines).toList =
      (lines.map fun words => words.map String.toList).flatMap
        fun words => Text.sentence words ++ ['\n'] := by
  simp [joinLines, String.toList_join, List.flatMap_map]

theorem spokenLines_joinLines {lines : List (List String)}
    (firm : ∀ words ∈ lines, Text.Firm (Text.sentence (words.map String.toList))) :
    Text.spokenLines (joinLines lines).toList =
      Text.spoken 1 (lines.map fun words => Text.sentence (words.map String.toList)) := by
  have found := Text.spokenLines_firm (List.forall_mem_map.mpr firm)
  rw [toList_joinLines, List.flatMap_map]
  rwa [List.flatMap_map] at found

/-- Firm lines that are no comments are read one after the other. -/
theorem read_joinLines {lines : List (List String)}
    (firm : ∀ words ∈ lines, Text.Firm (Text.sentence (words.map String.toList)))
    (loud : ∀ words ∈ lines, (Text.sentence (words.map String.toList)).head? ≠ some '#') :
    Document.read (joinLines lines) =
      Stage.readLines .blank (wordLines 1 lines) >>= Stage.document := by
  have spoken := Text.spoken_sentences (List.forall_mem_map.mpr firm)
    (List.forall_mem_map.mpr loud) 1
  rw [List.map_map] at spoken
  rw [Document.read, spokenLines_joinLines firm, Stage.readLines, wordLines, ← spoken]
  rfl

/-- The lines before the first step give the counts and the labels of the nodes. -/
theorem readLines_preambleWords
    (tokens : ∀ node ∈ timeline.nodes.keys, Text.isToken node.label.toList = true)
    (token : Text.isToken graphName.toList = true)
    (stepsFit : timeline.stepCount < UInt64.size) (linesFit : timeline.lineCount < UInt64.size) :
    Stage.readLines .blank (wordLines 1 (timeline.preambleWords graphName)) =
      .ok (.body ⟨(timeline.document graphName).header,
        (timeline.nodes.keys.map NodeName.label).reverse, []⟩) := by
  have read := Stage.readLines_preamble token (UInt64.ofNat timeline.stepCount)
    (UInt64.ofNat timeline.lineCount) (List.forall_mem_map.mpr tokens)
  rwa [UInt64.toNat_ofNat_of_lt' stepsFit, UInt64.toNat_ofNat_of_lt' linesFit, List.map_map]
    at read

/-- The text of a legible timeline is read as its document. -/
theorem read_joinLines_words (ascending : timeline.moments.Pairwise fun earlier later =>
      earlier.step < later.step)
    (legible : timeline.Legible) (spoken : graphName.toList.head? ≠ some '#')
    (stepsFit : timeline.stepCount < UInt64.size) (linesFit : timeline.lineCount < UInt64.size)
    (writable : timeline.Writable graphName) :
    Document.read (joinLines (timeline.words graphName)) = .ok (timeline.document graphName) := by
  have preambleRead := readLines_preambleWords legible.nodes writable.token stepsFit linesFit
  obtain ⟨draft, bodyRead, document⟩ := @Stage.readLines_bodyWords
    ⟨(timeline.document graphName).header, (timeline.nodes.keys.map NodeName.label).reverse, []⟩
    timeline.offset timeline.moments
    (shifted_pos writable.shiftable ascending) (shifted_ascending writable.shiftable ascending)
    legible.events [] (4 + timeline.nodes.size)
  have read : Stage.readLines .blank (wordLines 1 (timeline.words graphName)) =
      .ok (.body draft) := by
    rw [words, ← preambleWords, wordLines_append]
    apply (Stage.readLines_append preambleRead _).trans
    rw [← bodyRead]
    congr 2
    simp [preambleWords, Table.size, Table.keys]
    omega
  have sentences := isSentence_of_mem_words legible writable.token spoken
  rw [read_joinLines (fun words member => (sentences words member).firm)
    (fun words member => (sentences words member).spoken), read]
  refine congrArg Except.ok (document.trans ?_)
  simp [Draft.document, Timeline.document]

end Whole

end Timeline

end ContactReplay
