import ContactReplay.Proofs.GraphStream.Wording

/-!
# The grammar of graph streams

`Spells` says which lines spell which document, without saying how they are read: a tag, a header, a
setup step with the lines of its nodes, and then the steps, ascending, each with the lines of its
edges.  `Document.read_eq_ok_iff_spells` proves that a text is read as a document exactly if the
lines that say something spell it.

* `Draft.Takes` lists what a line of the body can do, and `readLine_eq_ok_iff` shows that it does
  just that.
* Lines that spell a document are read from the front (`exists_readLines_of_blocks`).
* What has been read keeps being spelled when one more line is taken (`Draft.Spelled.take`).
-/

namespace ContactReplay

/-! ## Texts -/

namespace Text

/-- A numeral: digits of a number that fits into a word, with at most one sign in front. -/
def Numeral (text : List Char) (value : UInt64) : Prop :=
  ∃ digits, (text = digits ∨ text = '+' :: digits) ∧ digits ≠ [] ∧
    (∀ digit ∈ digits, digit.isDigit = true) ∧ Nat.ofDigitChars 10 digits 0 = value.toNat

theorem dropPlus_eq_or (text : List Char) : text = dropPlus text ∨ text = '+' :: dropPlus text := by
  unfold dropPlus
  split
  · exact Or.inr rfl
  · exact Or.inl rfl

theorem digitsValue?_eq_some_iff {digits : List Char} {value : Nat} :
    digitsValue? digits = some value ↔ digits ≠ [] ∧
      (∀ digit ∈ digits, digit.isDigit = true) ∧ Nat.ofDigitChars 10 digits 0 = value := by
  rw [digitsValue?, Option.ite_none_right_eq_some, List.all_eq_true, and_assoc, Option.some.injEq]

theorem numeral?_eq_some_iff {text : List Char} {value : UInt64} :
    numeral? text = some value ↔ Numeral text value := by
  constructor
  · intro read
    obtain ⟨number, natural, fits⟩ := Option.bind_eq_some_iff.mp read
    obtain ⟨less, same⟩ := Option.ite_none_right_eq_some.mp fits
    obtain ⟨some, digits, rfl⟩ := digitsValue?_eq_some_iff.mp natural
    refine ⟨dropPlus text, dropPlus_eq_or text, some, digits, ?_⟩
    rw [← Option.some.inj same, UInt64.toNat_ofNat_of_lt' less]
  · rintro ⟨digits, shape, some, digit, same⟩
    have bare : dropPlus text = digits := by
      rcases shape with rfl | rfl
      · obtain ⟨first, rest, rfl⟩ := List.exists_cons_of_ne_nil some
        exact dropPlus_of_head_isDigit (digit first List.mem_cons_self)
      · rfl
    have natural : natural? text = .some value.toNat := by
      rw [natural?, bare]
      exact digitsValue?_eq_some_iff.mpr ⟨some, digit, same⟩
    rw [numeral?, natural, Option.bind_eq_bind, Option.bind_some, if_pos value.toNat_lt_size,
      UInt64.ofNat_toNat]

/-! ### Lines that say something -/

theorem trimEnd_prefix (text : List Char) : trimEnd text <+: text := by
  rw [trimEnd, ← List.reverse_suffix, List.reverse_reverse]
  exact List.dropWhile_suffix isBlank

/-- A line that says something begins with a visible character. -/
theorem exists_of_mem_spokenLines {text : List Char} {line : Line}
    (member : line ∈ spokenLines text) :
    ∃ first rest, line.text = first :: rest ∧ isBlank first = false := by
  obtain ⟨⟨raw, number⟩, -, kept⟩ := List.mem_filterMap.mp member
  obtain ⟨loud, same⟩ := Option.ite_none_left_eq_some.mp kept
  obtain rfl := Option.some.inj same
  dsimp only
  cases shape : trim raw with
  | nil => exact absurd (by rw [isSilent, shape]; rfl) loud
  | cons first rest =>
      refine ⟨first, rest, rfl, ?_⟩
      obtain ⟨more, whole⟩ := trimEnd_prefix (trimStart raw)
      rw [← trim, shape] at whole
      exact head_trimStart_not_blank whole.symm

theorem splitAt_head_prefix {separates : Char → Bool} {text piece : List Char}
    {pieces : List (List Char)} (split : splitAt separates text = piece :: pieces) :
    piece <+: text := by
  induction text generalizing piece pieces with
  | nil =>
      obtain ⟨rfl, -⟩ := List.cons.inj split
      exact List.nil_prefix
  | cons head tail inductionHypothesis =>
      obtain ⟨first, others, shape⟩ := List.exists_cons_of_ne_nil (splitAt_ne_nil separates tail)
      rw [splitAt] at split
      split at split
      · obtain ⟨rfl, -⟩ := List.cons.inj split
        exact List.nil_prefix
      · rw [shape, consFirst] at split
        obtain ⟨rfl, -⟩ := List.cons.inj split
        exact List.cons_prefix_cons.mpr ⟨rfl, inductionHypothesis shape⟩

/-- The first token of a text that begins with a visible character is what the text begins with. -/
theorem tokens_head_prefix {first : Char} {rest token : List Char} {others : List (List Char)}
    (visible : isBlank first = false) (found : tokens (first :: rest) = token :: others) :
    token <+: first :: rest := by
  obtain ⟨piece, pieces, shape⟩ := List.exists_cons_of_ne_nil (splitAt_ne_nil isBlank rest)
  have split : splitAt isBlank (first :: rest) = (first :: piece) :: pieces := by
    rw [splitAt, if_neg (by simp [visible]), shape, consFirst]
  rw [tokens, split, List.filter_cons_of_pos rfl] at found
  obtain ⟨rfl, -⟩ := List.cons.inj found
  exact splitAt_head_prefix split

end Text

theorem Action.word_of_ofWord? {word : String} {action : Action}
    (found : Action.ofWord? word = some action) : action.word = word := by
  simpa using List.find?_some found

namespace GraphStream

/-! ## The grammar -/

/-- A header line: the name of the graph and two counts. -/
def IsHeader (line : Text.Line) (header : Header) : Prop :=
  ∃ steps events, Text.words line.text = [header.graphName, steps, events] ∧
    Text.Numeral steps.toList header.declaredSteps ∧
    Text.Numeral events.toList header.declaredEvents

/-- A line that begins a step. -/
def IsStep (line : Text.Line) (step : UInt64) : Prop :=
  ∃ numeral, Text.words line.text = ["st", numeral] ∧ Text.Numeral numeral.toList step

/-- A line that declares a node; what follows its name says nothing. -/
def IsNode (line : Text.Line) (name : String) : Prop :=
  ∃ attributes, Text.words line.text = "an" :: name :: attributes

/-- A line that adds an edge without a direction between two different nodes, or deletes one. -/
inductive IsEdge (line : Text.Line) : EdgeLine → Prop where
  | add {edge first second : String}
      (words : Text.words line.text = ["ae", edge, first, second])
      (undirected : ∀ operand ∈ [edge, first, second], operand ≠ ">" ∧ operand ≠ "<")
      (different : first ≠ second) : IsEdge line (.add edge first second line.number)
  | delete {edge : String} (words : Text.words line.text = ["de", edge]) :
      IsEdge line (.delete edge line.number)

/-- The lines of a step: the one that begins it, and one for each of its edges. -/
inductive IsBlock : List Text.Line → DocumentStep → Prop where
  | intro {first : Text.Line} {rest : List Text.Line} {step : UInt64} {edges : List EdgeLine}
      (begins : IsStep first step) (goesOn : List.Forall₂ IsEdge rest edges) :
      IsBlock (first :: rest) ⟨step, first.number, edges⟩

/-- The lines that spell a document. -/
inductive Spells : List Text.Line → Document → Prop where
  | intro {tag header setup : Text.Line} {nodeLines : List Text.Line}
      {blocks : List (List Text.Line)} {document : Document}
      (tagged : tag.text = "DGS004".toList)
      (headed : IsHeader header document.header)
      (started : IsStep setup 0)
      (nodes : List.Forall₂ IsNode nodeLines document.nodes)
      (steps : List.Forall₂ IsBlock blocks document.steps)
      (ascending : (0 :: document.steps.map (·.step)).Pairwise (· < ·)) :
      Spells (tag :: header :: setup :: (nodeLines ++ blocks.flatten)) document

/-! ## Single lines -/

theorem readCount_eq_ok_iff {raw : String} {count : UInt64} :
    readCount raw = .ok count ↔ Text.Numeral raw.toList count := by
  rw [← Text.numeral?_eq_some_iff, readCount]
  cases Text.numeral? raw.toList <;> simp

theorem readHeader_eq_ok_iff {line : Text.Line} {header : Header} :
    readHeader line.text = .ok header ↔ IsHeader line header := by
  constructor
  · intro read
    unfold readHeader at read
    split at read
    · rename_i name steps events words
      cases stepCount : readCount steps with
      | error cause =>
          rw [stepCount] at read
          cases read
      | ok stepValue =>
          cases eventCount : readCount events with
          | error cause =>
              rw [stepCount, eventCount] at read
              cases read
          | ok eventValue =>
              rw [stepCount, eventCount] at read
              cases read
              exact ⟨steps, events, words, readCount_eq_ok_iff.mp stepCount,
                readCount_eq_ok_iff.mp eventCount⟩
    · cases read
  · rintro ⟨steps, events, words, stepCount, eventCount⟩
    rw [readHeader, words]
    dsimp only
    rw [readCount_eq_ok_iff.mpr stepCount, readCount_eq_ok_iff.mpr eventCount]
    rfl

theorem readStepNumber_eq_ok_iff {line : Text.Line} {step : UInt64} :
    readStepNumber line.text = .ok step ↔ IsStep line step := by
  constructor
  · intro read
    unfold readStepNumber at read
    split at read
    · rename_i word raw words
      split at read
      · rename_i isStep
        cases numeral : Text.numeral? raw.toList with
        | none =>
            rw [numeral] at read
            cases read
        | some value =>
            rw [numeral] at read
            cases read
            subst isStep
            exact ⟨raw, words, Text.numeral?_eq_some_iff.mp numeral⟩
      · cases read
    · cases read
  · rintro ⟨raw, words, numeral⟩
    have isStep : "st" = Action.step.word := rfl
    rw [readStepNumber, words]
    dsimp only
    rw [if_pos isStep, Text.numeral?_eq_some_iff.mpr numeral]

/-- A step line begins with the word of a step and not with a blank. -/
theorem IsStep.begins {line : Text.Line} {step : UInt64} (isStep : IsStep line step) {first : Char}
    {rest : List Char} (shape : line.text = first :: rest) (visible : Text.isBlank first = false) :
    Action.step.word.toList.isPrefixOf line.text = true := by
  obtain ⟨raw, words, -⟩ := isStep
  rw [Text.words, shape] at words
  obtain ⟨token, others, found, same, -⟩ := List.map_eq_cons_iff.mp words
  have starts := Text.tokens_head_prefix visible found
  rw [List.isPrefixOf_iff_prefix, shape, Action.word, ← same, String.toList_ofList]
  exact starts

theorem readSetup_eq_ok_iff {line : Text.Line} {first : Char} {rest : List Char}
    (shape : line.text = first :: rest) (visible : Text.isBlank first = false) :
    readSetup line.text = .ok () ↔ IsStep line 0 := by
  constructor
  · intro read
    rw [readSetup] at read
    split at read
    · cases number : readStepNumber line.text with
      | error cause =>
          rw [number] at read
          cases read
      | ok step =>
          rw [number] at read
          simp only [bind, Except.bind] at read
          split at read
          · rename_i zero
            exact readStepNumber_eq_ok_iff.mp (zero ▸ number)
          · cases read
    · cases read
  · intro isStep
    rw [readSetup, if_pos (isStep.begins shape visible), readStepNumber_eq_ok_iff.mpr isStep]
    rfl

theorem readAddition_eq_ok_iff {line : Text.Line} {operands : List String} {edge : EdgeLine}
    (words : Text.words line.text = "ae" :: operands) :
    readAddition line.text line.number operands = .ok edge ↔ IsEdge line edge := by
  constructor
  · intro read
    obtain ⟨-, undirected⟩ := exists_of_readAddition read
    unfold readAddition at read
    split at read
    · cases read
    · split at read
      · split at read
        · cases read
        · rename_i different
          cases read
          exact .add words undirected different
      · cases read
  · intro isEdge
    cases isEdge with
    | add others undirected different =>
        obtain ⟨-, rfl⟩ := List.cons.inj (words.symm.trans others)
        exact Draft.readAddition_eq _ _ undirected different
    | delete others =>
        obtain ⟨impossible, -⟩ := List.cons.inj (words.symm.trans others)
        exact absurd impossible (by decide)

theorem readDeletion_eq_ok_iff {line : Text.Line} {operands : List String} {edge : EdgeLine}
    (words : Text.words line.text = "de" :: operands) :
    readDeletion line.text line.number operands = .ok edge ↔ IsEdge line edge := by
  constructor
  · intro read
    unfold readDeletion at read
    split at read
    · cases read
      exact .delete words
    · cases read
  · intro isEdge
    cases isEdge with
    | add others undirected different =>
        obtain ⟨impossible, -⟩ := List.cons.inj (words.symm.trans others)
        exact absurd impossible (by decide)
    | delete others =>
        obtain ⟨-, rfl⟩ := List.cons.inj (words.symm.trans others)
        rfl

/-! ## Lines of the body -/

namespace Draft

/-- What a line of the body can do: declare a node before the first step, begin a later step, or add
or delete an edge within a step. -/
inductive Takes (line : Text.Line) : Draft → Draft → Prop where
  | node {header : Header} {nodes : List String} {name : String} (isNode : IsNode line name) :
      Takes line ⟨header, nodes, []⟩ ⟨header, name :: nodes, []⟩
  | step {draft : Draft} {step : UInt64} (isStep : IsStep line step)
      (later : draft.currentStep < step) :
      Takes line draft { draft with steps := ⟨step, line.number, []⟩ :: draft.steps }
  | edge {header : Header} {nodes : List String} {current : DocumentStep}
      {earlier : List DocumentStep} {edge : EdgeLine} (isEdge : IsEdge line edge) :
      Takes line ⟨header, nodes, current :: earlier⟩
        ⟨header, nodes, { current with lines := edge :: current.lines } :: earlier⟩

theorem openStep_eq_ok_iff {draft next : Draft} {line : Text.Line} :
    draft.openStep line = .ok next ↔ ∃ step, IsStep line step ∧ draft.currentStep < step ∧
      next = { draft with steps := ⟨step, line.number, []⟩ :: draft.steps } := by
  rw [openStep]
  cases number : readStepNumber line.text with
  | error cause =>
      constructor
      · intro read
        cases read
      · rintro ⟨step, isStep, -⟩
        rw [readStepNumber_eq_ok_iff.mpr isStep] at number
        cases number
  | ok step =>
      have isStep := readStepNumber_eq_ok_iff.mp number
      have only : ∀ other, IsStep line other → other = step := fun other isOther =>
        Except.ok.inj ((readStepNumber_eq_ok_iff.mpr isOther).symm.trans number)
      simp only [bind, Except.bind]
      split
      · rename_i notLater
        constructor
        · intro read
          cases read
        · rintro ⟨other, isOther, later, -⟩
          rw [only other isOther] at later
          exact absurd notLater (UInt64.not_le.mpr later)
      · rename_i later
        constructor
        · rintro ⟨rfl⟩
          exact ⟨step, isStep, UInt64.not_le.mp later, rfl⟩
        · rintro ⟨other, isOther, -, rfl⟩
          rw [only other isOther]
          rfl

theorem Takes.readLine_eq {draft next : Draft} {line : Text.Line} (takes : Takes line draft next) :
    draft.readLine line = .ok next := by
  cases takes with
  | node isNode =>
      obtain ⟨attributes, words⟩ := isNode
      rw [readLine, words]
      rfl
  | @step draft step isStep later =>
      have opened := openStep_eq_ok_iff.mpr ⟨step, isStep, later, rfl⟩
      obtain ⟨numeral, words, -⟩ := isStep
      rw [readLine, words, ← opened]
      dsimp only
      cases draft.steps with
      | nil => rfl
      | cons current earlier => rfl
  | edge isEdge =>
      cases isEdge with
      | @add edge first second words undirected different =>
          have read := (readAddition_eq_ok_iff words).mpr (.add words undirected different)
          rw [readLine, words]
          exact congrArg (Except.map _) read
      | delete words =>
          rw [readLine, words]
          rfl

theorem Takes.header_eq {draft next : Draft} {line : Text.Line} (takes : Takes line draft next) :
    next.header = draft.header := by
  cases takes <;> rfl

section Inversion

variable {header : Header} {nodes : List String} {next : Draft} {line : Text.Line} {word : String}
  {operands : List String} (words : Text.words line.text = word :: operands)
include words

theorem takes_of_readSetupLine
    (read : readSetupLine ⟨header, nodes, []⟩ line word operands = .ok next) :
    Takes line ⟨header, nodes, []⟩ next := by
  unfold readSetupLine at read
  split at read
  · obtain ⟨step, isStep, later, rfl⟩ := openStep_eq_ok_iff.mp read
    exact .step isStep later
  · rename_i name attributes found
    cases read
    rw [← Action.word_of_ofWord? found] at words
    exact .node ⟨attributes, words⟩
  all_goals cases read

theorem takes_of_readStepLine {current : DocumentStep} {earlier : List DocumentStep}
    (read : readStepLine ⟨header, nodes, current :: earlier⟩ current earlier line word operands =
      .ok next) : Takes line ⟨header, nodes, current :: earlier⟩ next := by
  unfold readStepLine at read
  dsimp only at read
  split at read
  · obtain ⟨step, isStep, later, rfl⟩ := openStep_eq_ok_iff.mp read
    exact .step isStep later
  · cases read
  · rename_i found
    rw [← Action.word_of_ofWord? found] at words
    cases added : readAddition line.text line.number operands with
    | error cause =>
        rw [added] at read
        cases read
    | ok edge =>
        rw [added] at read
        cases read
        exact .edge ((readAddition_eq_ok_iff words).mp added)
  · rename_i found
    rw [← Action.word_of_ofWord? found] at words
    cases deleted : readDeletion line.text line.number operands with
    | error cause =>
        rw [deleted] at read
        cases read
    | ok edge =>
        rw [deleted] at read
        cases read
        exact .edge ((readDeletion_eq_ok_iff words).mp deleted)
  · cases read

end Inversion

/-- A line with some word on it does just what a line of the body can do. -/
theorem readLine_eq_ok_iff {draft next : Draft} {line : Text.Line}
    (some : Text.words line.text ≠ []) :
    draft.readLine line = .ok next ↔ Takes line draft next := by
  refine ⟨fun read => ?_, Takes.readLine_eq⟩
  obtain ⟨word, operands, words⟩ := List.exists_cons_of_ne_nil some
  obtain ⟨header, nodes, steps⟩ := draft
  rw [readLine, words] at read
  cases steps with
  | nil => exact takes_of_readSetupLine words read
  | cons current earlier => exact takes_of_readStepLine words read

end Draft

/-! ## Reading what is spelled -/

namespace Stage

theorem readLines_isNode {header : Header} {nodes : List String} {lines : List Text.Line}
    {names : List String} (spelled : List.Forall₂ IsNode lines names) :
    readLines (.body ⟨header, nodes, []⟩) lines = .ok (.body ⟨header, names.reverse ++ nodes, []⟩)
    := by
  induction spelled generalizing nodes with
  | nil => rfl
  | @cons line name lines names isNode _ inductionHypothesis =>
      have takes : Draft.Takes line ⟨header, nodes, []⟩ ⟨header, name :: nodes, []⟩ := .node isNode
      rw [readLines_cons (readLine_body takes.readLine_eq), inductionHypothesis,
        List.reverse_cons, List.append_assoc]
      rfl

theorem readLines_isEdge {header : Header} {nodes : List String} {current : DocumentStep}
    {earlier : List DocumentStep} {lines : List Text.Line} {edges : List EdgeLine}
    (spelled : List.Forall₂ IsEdge lines edges) :
    readLines (.body ⟨header, nodes, current :: earlier⟩) lines = .ok (.body ⟨header, nodes,
      { current with lines := edges.reverse ++ current.lines } :: earlier⟩) := by
  induction spelled generalizing current with
  | nil => rfl
  | @cons line edge lines edges isEdge _ inductionHypothesis =>
      have takes : Draft.Takes line ⟨header, nodes, current :: earlier⟩
        ⟨header, nodes, { current with lines := edge :: current.lines } :: earlier⟩ := .edge isEdge
      rw [readLines_cons (readLine_body takes.readLine_eq), inductionHypothesis,
        List.reverse_cons, List.append_assoc]
      rfl

theorem exists_readLines_isBlock {draft : Draft} {blocks : List (List Text.Line)}
    {steps : List DocumentStep} (spelled : List.Forall₂ IsBlock blocks steps)
    (ascending : (draft.currentStep :: steps.map (·.step)).Pairwise (· < ·)) :
    ∃ next, readLines (.body draft) blocks.flatten = .ok (.body next) ∧
      next.document = { draft.document with steps := draft.document.steps ++ steps } := by
  induction spelled generalizing draft with
  | nil => exact ⟨draft, rfl, by rw [List.append_nil]⟩
  | @cons block moment blocks steps isBlock _ inductionHypothesis =>
      obtain ⟨later, restAscending⟩ := List.pairwise_cons.mp ascending
      cases isBlock with
      | @intro first rest step edges begins goesOn =>
          have opened := readLine_body
            (Draft.Takes.step begins (later step List.mem_cons_self)).readLine_eq
          have edgesRead := @readLines_isEdge draft.header draft.nodes ⟨step, first.number, []⟩
            draft.steps _ _ goesOn
          rw [List.append_nil] at edgesRead
          obtain ⟨next, read, document⟩ := @inductionHypothesis
            ⟨draft.header, draft.nodes, ⟨step, first.number, edges.reverse⟩ :: draft.steps⟩
            restAscending
          refine ⟨next, ?_, ?_⟩
          · rw [List.flatten_cons, List.cons_append, readLines_cons opened,
              readLines_append edgesRead, read]
          · rw [document]
            simp [Draft.document]

end Stage

/-! ## Spelling what has been read -/

/-- What has been read after the setup line is spelled by the lines read there; the lines of the
nodes and of the steps are listed newest first, as they are in the draft. -/
inductive Draft.Spelled : List Text.Line → Draft → Prop where
  | intro {nodeLines : List Text.Line} {blocks : List (List Text.Line)} {draft : Draft}
      (nodes : List.Forall₂ IsNode nodeLines draft.nodes)
      (steps : List.Forall₂ (fun block moment => IsBlock block
        { moment with lines := moment.lines.reverse }) blocks draft.steps)
      (descending : (draft.steps.map DocumentStep.step ++ [0]).Pairwise (· > ·)) :
      Spelled (nodeLines.reverse ++ blocks.reverse.flatten) draft

theorem IsBlock.concat {block : List Text.Line} {moment : DocumentStep}
    (isBlock : IsBlock block moment) {line : Text.Line} {edge : EdgeLine}
    (isEdge : IsEdge line edge) :
    IsBlock (block ++ [line]) { moment with lines := moment.lines ++ [edge] } := by
  cases isBlock with
  | intro begins goesOn => exact .intro begins (List.rel_append goesOn (.cons isEdge .nil))

namespace Draft

/-- The newest step is the greatest one. -/
theorem le_currentStep {draft : Draft}
    (descending : (draft.steps.map DocumentStep.step ++ [0]).Pairwise (· > ·)) :
    ∀ step ∈ draft.steps.map DocumentStep.step ++ [0], step ≤ draft.currentStep := by
  rw [currentStep]
  cases steps : draft.steps with
  | nil =>
      intro step member
      rw [List.mem_singleton.mp member]
      exact UInt64.le_refl 0
  | cons current earlier =>
      rw [steps, List.map_cons, List.cons_append] at descending
      intro step member
      rcases List.mem_cons.mp member with rfl | older
      · exact UInt64.le_refl _
      · exact UInt64.le_of_lt (List.rel_of_pairwise_cons descending older)

theorem spelled_nil (header : Header) : Spelled [] { header } :=
  @Spelled.intro [] [] { header } .nil .nil (List.pairwise_singleton _ _)

/-- One more line that is taken keeps the draft spelled. -/
theorem Spelled.take {lines : List Text.Line} {draft next : Draft} (spelled : Spelled lines draft)
    {line : Text.Line} (takes : Takes line draft next) : Spelled (lines ++ [line]) next := by
  obtain ⟨nodes, steps, descending⟩ := spelled
  rename_i nodeLines blocks
  cases takes with
  | @node header names name isNode =>
      cases steps
      have whole : nodeLines.reverse ++ ([] : List (List Text.Line)).reverse.flatten ++ [line] =
          (line :: nodeLines).reverse ++ ([] : List (List Text.Line)).reverse.flatten := by simp
      rw [whole]
      exact .intro (.cons isNode nodes) .nil descending
  | @step _ step isStep later =>
      have whole : nodeLines.reverse ++ blocks.reverse.flatten ++ [line] =
          nodeLines.reverse ++ ([line] :: blocks).reverse.flatten := by simp
      rw [whole]
      refine .intro nodes (.cons (.intro isStep .nil) steps)
        (List.pairwise_cons.mpr ⟨?_, descending⟩)
      exact fun other member => UInt64.lt_of_le_of_lt (le_currentStep descending other member) later
  | @edge header names current earlier edge isEdge =>
      cases steps with
      | @cons block _ older _ isBlock restBlocks =>
          have whole : nodeLines.reverse ++ (block :: older).reverse.flatten ++ [line] =
              nodeLines.reverse ++ ((block ++ [line]) :: older).reverse.flatten := by simp
          rw [whole]
          refine .intro nodes (.cons ?_ restBlocks) descending
          rw [List.reverse_cons]
          exact isBlock.concat isEdge

theorem Spelled.spells {lines : List Text.Line} {draft : Draft} (spelled : Spelled lines draft)
    {tag header setup : Text.Line} (tagged : tag.text = "DGS004".toList)
    (headed : IsHeader header draft.header) (started : IsStep setup 0) :
    Spells (tag :: header :: setup :: lines) draft.document := by
  obtain ⟨nodes, steps, descending⟩ := spelled
  refine .intro tagged headed started (List.forall₂_reverse_iff.mpr nodes) ?_ ?_
  · exact List.forall₂_reverse_iff.mpr (List.forall₂_map_right_iff.mpr steps)
  · have whole : 0 :: draft.document.steps.map DocumentStep.step =
        (draft.steps.map DocumentStep.step ++ [0]).reverse := by simp [document, Function.comp_def]
    exact whole ▸ List.pairwise_reverse.mpr descending

end Draft

namespace Stage

theorem exists_of_readLines_cons {stage final : Stage} {line : Text.Line} {rest : List Text.Line}
    (read : stage.readLines (line :: rest) = .ok final) :
    ∃ next, stage.readText line = .ok next ∧ next.readLines rest = .ok final := by
  cases first : stage.readText line with
  | error cause =>
      rw [readLines, List.foldlM_cons, Stage.readLine, first] at read
      cases read
  | ok next =>
      refine ⟨next, rfl, ?_⟩
      have taken : stage.readLine line = .ok next := by
        rw [Stage.readLine, first]
        rfl
      rwa [readLines_cons taken] at read

/-- What is read after the setup line is spelled by the lines. -/
theorem exists_spelled_of_readLines {draft : Draft} {past lines : List Text.Line}
    (spelled : Draft.Spelled past draft) {final : Stage}
    (read : readLines (.body draft) lines = .ok final)
    (some : ∀ line ∈ lines, Text.words line.text ≠ []) :
    ∃ next, final = .body next ∧ next.header = draft.header ∧
      Draft.Spelled (past ++ lines) next := by
  induction lines generalizing draft past with
  | nil =>
      cases read
      exact ⟨draft, rfl, rfl, (List.append_nil past).symm ▸ spelled⟩
  | cons line rest inductionHypothesis =>
      obtain ⟨lineSome, restSome⟩ := List.forall_mem_cons.mp some
      obtain ⟨stage, first, restRead⟩ := exists_of_readLines_cons read
      cases taken : draft.readLine line with
      | error cause =>
          rw [readText, taken] at first
          cases first
      | ok next =>
          rw [readText, taken] at first
          cases first
          have takes := (Draft.readLine_eq_ok_iff lineSome).mp taken
          obtain ⟨last, rfl, sameHeader, lastSpelled⟩ :=
            inductionHypothesis (spelled.take takes) restRead restSome
          refine ⟨last, rfl, sameHeader.trans takes.header_eq, ?_⟩
          rwa [List.append_assoc] at lastSpelled

/-! ### The first three lines -/

theorem readText_blank_eq_ok_iff {line : Text.Line} {next : Stage} :
    readText .blank line = .ok next ↔
      line.text = "DGS004".toList ∧ next = .tagged line.number := by
  rw [readText]
  split
  · rename_i tag
    have same : line.text = "DGS004".toList := by
      rw [← formatTag, ← tag, String.toList_ofList]
    exact ⟨fun read => ⟨same, (Except.ok.inj read).symm⟩, fun both => congrArg _ both.2.symm⟩
  · rename_i other
    constructor
    · intro read
      cases read
    · rintro ⟨tagged, -⟩
      refine absurd ?_ other
      rw [tagged, String.ofList_toList, formatTag]

theorem readText_tagged_eq_ok_iff {number : Nat} {line : Text.Line} {next : Stage} :
    readText (.tagged number) line = .ok next ↔
      ∃ header, IsHeader line header ∧ next = .headed line.number header := by
  rw [readText]
  cases read : readHeader line.text with
  | error cause =>
      constructor
      · intro same
        cases same
      · rintro ⟨header, isHeader, -⟩
        rw [readHeader_eq_ok_iff.mpr isHeader] at read
        cases read
  | ok header =>
      have isHeader := readHeader_eq_ok_iff.mp read
      refine ⟨fun same => ⟨header, isHeader, (Except.ok.inj same).symm⟩, ?_⟩
      rintro ⟨other, isOther, rfl⟩
      have same := (readHeader_eq_ok_iff.mpr isOther).symm.trans read
      rw [Except.ok.inj same]
      rfl

theorem readText_headed_eq_ok_iff {number : Nat} {header : Header} {line : Text.Line}
    {next : Stage} {first : Char} {rest : List Char} (shape : line.text = first :: rest)
    (visible : Text.isBlank first = false) :
    readText (.headed number header) line = .ok next ↔ IsStep line 0 ∧ next = .body { header } := by
  rw [readText, ← readSetup_eq_ok_iff shape visible]
  cases read : readSetup line.text with
  | error cause =>
      constructor
      · intro same
        cases same
      · rintro ⟨same, -⟩
        cases same
  | ok nothing =>
      exact ⟨fun same => ⟨rfl, (Except.ok.inj same).symm⟩, fun both => congrArg _ both.2.symm⟩

theorem readLines_cons_of_readText {stage next : Stage} {line : Text.Line}
    (read : stage.readText line = .ok next) (rest : List Text.Line) :
    stage.readLines (line :: rest) = next.readLines rest := by
  refine readLines_cons ?_ rest
  rw [Stage.readLine, read]
  rfl

section Visible

variable {lines : List Text.Line} {document : Document}
  (visible : ∀ line ∈ lines, ∃ first rest, line.text = first :: rest ∧ Text.isBlank first = false)
include visible

/-- Lines that could be read as a document spell it. -/
theorem spells_of_readLines {final : Stage} (read : readLines .blank lines = .ok final)
    (finished : final.document = .ok document) : Spells lines document := by
  have worded : ∀ line ∈ lines, Text.words line.text ≠ [] := by
    intro line member
    obtain ⟨first, rest, shape, firstVisible⟩ := visible line member
    rw [shape, Text.words, Ne, List.map_eq_nil_iff]
    exact Text.tokens_ne_nil List.mem_cons_self firstVisible
  -- A text that ends before its setup line has no document.
  cases lines with
  | nil =>
      cases read
      cases finished
  | cons tag rest =>
      obtain ⟨next, tagRead, restRead⟩ := exists_of_readLines_cons read
      obtain ⟨tagged, rfl⟩ := readText_blank_eq_ok_iff.mp tagRead
      cases rest with
      | nil =>
          cases restRead
          cases finished
      | cons header rest =>
          obtain ⟨next, headerRead, restRead⟩ := exists_of_readLines_cons restRead
          obtain ⟨told, headed, rfl⟩ := readText_tagged_eq_ok_iff.mp headerRead
          cases rest with
          | nil =>
              cases restRead
              cases finished
          | cons setup rest =>
              obtain ⟨next, setupRead, restRead⟩ := exists_of_readLines_cons restRead
              obtain ⟨first, others, shape, firstVisible⟩ := visible setup (by simp)
              obtain ⟨started, rfl⟩ := (readText_headed_eq_ok_iff shape firstVisible).mp setupRead
              obtain ⟨draft, rfl, same, spelled⟩ := exists_spelled_of_readLines
                (Draft.spelled_nil told) restRead fun line member => worded line (by simp [member])
              cases finished
              exact spelled.spells tagged (same ▸ headed) started

/-- Lines that spell a document are read as it. -/
theorem readLines_of_spells (spells : Spells lines document) :
    ∃ final, readLines .blank lines = .ok final ∧ final.document = .ok document := by
  obtain ⟨tagged, headed, started, nodes, steps, ascending⟩ := spells
  rename_i tag header setup nodeLines blocks
  obtain ⟨first, others, shape, firstVisible⟩ := visible setup (by simp)
  obtain ⟨draft, blocksRead, whole⟩ := @exists_readLines_isBlock
    ⟨document.header, document.nodes.reverse, []⟩ blocks document.steps steps ascending
  have nodesRead := @readLines_isNode document.header [] _ _ nodes
  rw [List.append_nil] at nodesRead
  refine ⟨.body draft, ?_, ?_⟩
  · rw [readLines_cons_of_readText (readText_blank_eq_ok_iff.mpr ⟨tagged, rfl⟩),
      readLines_cons_of_readText (readText_tagged_eq_ok_iff.mpr ⟨_, headed, rfl⟩),
      readLines_cons_of_readText
        ((readText_headed_eq_ok_iff shape firstVisible).mpr ⟨started, rfl⟩),
      readLines_append nodesRead, blocksRead]
  · rw [Stage.document, whole]
    simp [Draft.document]

end Visible

/-- A line that cannot be read is reported under its number. -/
theorem exists_of_readLine_eq_error {stage : Stage} {line : Text.Line} {error : Error}
    (failed : stage.readLine line = .error error) :
    ∃ cause, error = .format line.number (.stream cause) := by
  rw [Stage.readLine] at failed
  cases read : stage.readText line with
  | error cause =>
      rw [read] at failed
      cases failed
      exact ⟨cause, rfl⟩
  | ok next =>
      rw [read] at failed
      cases failed

/-- Reading fails at the first line that cannot follow. -/
theorem exists_of_readLines_eq_error {stage : Stage} {lines : List Text.Line} {error : Error}
    (failed : stage.readLines lines = .error error) :
    ∃ before line after middle, lines = before ++ line :: after ∧
      stage.readLines before = .ok middle ∧ middle.readLine line = .error error := by
  induction lines generalizing stage with
  | nil => cases failed
  | cons line rest inductionHypothesis =>
      cases read : stage.readLine line with
      | error cause =>
          rw [readLines, List.foldlM_cons, read] at failed
          cases failed
          exact ⟨[], line, rest, stage, rfl, rfl, read⟩
      | ok next =>
          rw [readLines_cons read] at failed
          obtain ⟨before, stuck, after, middle, rfl, begun, refused⟩ := inductionHypothesis failed
          refine ⟨line :: before, stuck, after, middle, rfl, ?_, refused⟩
          rw [readLines_cons read, begun]

/-- Whatever is wrong with a text, it is reported as a matter of its format. -/
theorem exists_format_of_readLines {stage : Stage} {lines : List Text.Line} {error : Error}
    (failed : stage.readLines lines = .error error) :
    ∃ number cause, error = .format number cause := by
  obtain ⟨_, line, _, _, -, -, refused⟩ := exists_of_readLines_eq_error failed
  obtain ⟨cause, rfl⟩ := exists_of_readLine_eq_error refused
  exact ⟨line.number, .stream cause, rfl⟩

end Stage

end GraphStream

/-! ## Whole texts -/

namespace Document

open GraphStream

theorem exists_format_of_read {text : String} {error : Error}
    (failed : Document.read text = .error error) :
    ∃ number cause, error = .format number cause := by
  rw [Document.read, ← Stage.readLines] at failed
  cases read : Stage.readLines .blank (Text.spokenLines text.toList) with
  | error cause =>
      rw [read] at failed
      cases failed
      exact Stage.exists_format_of_readLines read
  | ok final =>
      rw [read] at failed
      cases final with
      | body draft => cases failed
      | _ =>
          cases failed
          exact ⟨_, _, rfl⟩

theorem read_eq_ok_iff {text : String} {document : Document} :
    Document.read text = .ok document ↔ Spells (Text.spokenLines text.toList) document := by
  have visible : ∀ line ∈ Text.spokenLines text.toList, ∃ first rest, line.text = first :: rest ∧
      Text.isBlank first = false := fun line member => Text.exists_of_mem_spokenLines member
  rw [Document.read, ← Stage.readLines]
  constructor
  · intro read
    cases outcome : Stage.readLines .blank (Text.spokenLines text.toList) with
    | error cause =>
        rw [outcome] at read
        cases read
    | ok final =>
        rw [outcome] at read
        exact Stage.spells_of_readLines visible outcome read
  · intro spells
    obtain ⟨final, outcome, finished⟩ := Stage.readLines_of_spells visible spells
    rw [outcome]
    exact finished

/-- A text is read as a document exactly if its trimmed lines that say something, numbered with all
others, spell the document, and every other text is refused for its format. -/
theorem read_eq_ok_iff_spells (text : String) :
    let said := Text.spoken 1 ((Text.lines text.toList).map Text.trim)
    (∀ document, Document.read text = .ok document ↔ Spells said document) ∧
    ((¬∃ document, Spells said document) →
      ∃ number cause, Document.read text = .error (.format number cause)) := by
  intro said
  have whole : Text.spokenLines text.toList = said := Text.spokenLines_eq_spoken text.toList
  rw [← whole]
  refine ⟨fun document => read_eq_ok_iff, fun unspelled => ?_⟩
  cases read : Document.read text with
  | error error =>
      obtain ⟨number, cause, rfl⟩ := exists_format_of_read read
      exact ⟨number, cause, rfl⟩
  | ok document => exact absurd ⟨document, read_eq_ok_iff.mp read⟩ unspelled

/-- A comment, a blank line, a node with more to it and a step in other figures. -/
example : Document.read
      "DGS004\ng 2 3\n# setup\nst 00\nan a x:1\nan b\n\n  st +07\nae e a b\nde e" =
    .ok ⟨⟨"g", 2, 3⟩, ["a", "b"], [⟨7, 8, [.add "e" "a" "b" 9, .delete "e" 10]⟩]⟩ := by
  decide +kernel

end Document

end ContactReplay
