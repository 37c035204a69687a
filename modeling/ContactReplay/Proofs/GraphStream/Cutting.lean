import ContactReplay.Proofs.GraphStream.Grammar

/-!
# Cutting a graph stream

`Text.upTo` cuts a text after some of its lines, with their ends.  A graph stream that is cut right
before the line of a step is a graph stream with the steps before it
(`Document.read_textOfFirst`): the lines that say something are the ones before that line, and they
spell the shorter document.
-/

namespace ContactReplay

namespace Text

/-! ## Lines -/

/-- The first lines of a text with their ends. -/
def upTo : Nat → List Char → List Char
  | 0, _ => []
  | _ + 1, [] => []
  | count + 1, character :: rest =>
      character :: if character = '\n' then upTo count rest else upTo (count + 1) rest

theorem take_consFirst (character : Char) (pieces : List (List Char)) (count : Nat) :
    (consFirst character pieces).take (count + 1) =
      consFirst character (pieces.take (count + 1)) := by
  cases pieces with
  | nil => simp [consFirst]
  | cons piece rest => rfl

@[simp]
theorem upTo_zero (text : List Char) : upTo 0 text = [] := by
  cases text <;> rfl

@[simp]
theorem upTo_feed (count : Nat) (rest : List Char) :
    upTo (count + 1) ('\n' :: rest) = '\n' :: upTo count rest := by
  rw [upTo, if_pos rfl]

theorem upTo_cons {character : Char} (notFeed : character ≠ '\n') (count : Nat)
    (rest : List Char) :
    upTo (count + 1) (character :: rest) = character :: upTo (count + 1) rest := by
  rw [upTo, if_neg notFeed]

theorem head?_upTo (count : Nat) (text : List Char) :
    (upTo (count + 1) text).head? = text.head? := by
  cases text <;> rfl

/-- The lines of a cut text are the first lines of the text. -/
theorem lines_upTo (count : Nat) (text : List Char) :
    lines (upTo count text) = (lines text).take count := by
  fun_induction lines text generalizing count with
  | case1 => cases count <;> rfl
  | case2 rest inductionHypothesis =>
      cases count with
      | zero => rw [upTo_zero, lines, List.take_zero]
      | succ count =>
          rw [upTo_cons (by decide), upTo_feed, lines, inductionHypothesis, List.take_succ_cons]
  | case3 rest inductionHypothesis =>
      cases count with
      | zero => rw [upTo_zero, lines, List.take_zero]
      | succ count => rw [upTo_feed, lines, inductionHypothesis, List.take_succ_cons]
  | case4 character rest notReturn notFeed inductionHypothesis =>
      cases count with
      | zero => rw [upTo_zero, lines, List.take_zero]
      | succ count =>
          rw [upTo_cons notFeed, lines, inductionHypothesis, take_consFirst]
          · intro more carriage begins
            have head := head?_upTo count rest
            rw [begins, List.head?_cons] at head
            obtain ⟨others, shape⟩ := List.head?_eq_some_iff.mp head.symm
            exact notReturn others carriage shape
          · exact notFeed

theorem length_lines_cons {character : Char} (notFeed : character ≠ '\n') (rest : List Char) :
    (lines (character :: rest)).length = max 1 (lines rest).length := by
  by_cases carriage : ∃ others, character = '\r' ∧ rest = '\n' :: others
  · obtain ⟨others, rfl, rfl⟩ := carriage
    rw [lines, lines, List.length_cons, Nat.max_eq_right (Nat.le_add_left 1 _)]
  · rw [lines]
    · cases lines rest <;> simp [consFirst]
    · exact fun others returns feeds => carriage ⟨others, returns, feeds⟩
    · exact notFeed

/-- A text that is cut before one of its lines ends with a line end. -/
theorem complete_upTo {count : Nat} {text : List Char} (within : count < (lines text).length) :
    Complete (upTo count text) := by
  fun_induction upTo count text with
  | case1 => exact Or.inl rfl
  | case2 => exact Or.inl rfl
  | case3 count character rest inductionFeed inductionOther =>
      by_cases feed : character = '\n'
      · subst feed
        rw [lines, List.length_cons] at within
        rw [if_pos rfl]
        exact (inductionFeed (Nat.lt_of_succ_lt_succ within)).cons fun _ => rfl
      · rw [length_lines_cons feed] at within
        have later : count + 1 < (lines rest).length := by omega
        rw [if_neg feed]
        refine (inductionOther later).cons fun nothing => ?_
        cases rest with
        | nil => cases later
        | cons next others => cases nothing

/-! ## Lines that say something -/

/-- A line that says something, with its number. -/
def spoken? : List Char × Nat → Option Line
  | (line, number) => if isSilent (trim line) then none else some ⟨number, trim line⟩

theorem spokenLines_eq_filterMap (text : List Char) :
    spokenLines text = ((lines text).zipIdx 1).filterMap spoken? := rfl

theorem number_of_mem_spoken {pieces : List (List Char)} {start : Nat} {line : Line}
    (member : line ∈ (pieces.zipIdx start).filterMap spoken?) :
    start ≤ line.number ∧ line.number < start + pieces.length := by
  obtain ⟨⟨piece, number⟩, inPieces, said⟩ := List.mem_filterMap.mp member
  obtain ⟨-, same⟩ := Option.ite_none_left_eq_some.mp said
  obtain rfl := Option.some.inj same
  exact ⟨List.le_snd_of_mem_zipIdx inPieces, List.snd_lt_add_of_mem_zipIdx inPieces⟩

/-- What a text says up to a line is what it says in the lines before. -/
theorem spokenLines_upTo (count : Nat) (text : List Char) :
    spokenLines (upTo count text) =
      (spokenLines text).filter fun line => line.number ≤ count := by
  have parted : (lines text).zipIdx 1 = ((lines text).take count).zipIdx 1 ++
      ((lines text).drop count).zipIdx (1 + ((lines text).take count).length) := by
    rw [← List.zipIdx_append, List.take_append_drop]
  have kept : ∀ line ∈ (((lines text).take count).zipIdx 1).filterMap spoken?,
      decide (line.number ≤ count) = true := by
    intro line member
    have bound := (number_of_mem_spoken member).2
    rw [List.length_take] at bound
    exact decide_eq_true (by omega)
  have dropped : ∀ line ∈ (((lines text).drop count).zipIdx
      (1 + ((lines text).take count).length)).filterMap spoken?,
      ¬ decide (line.number ≤ count) = true := by
    intro line member
    have bounds := number_of_mem_spoken member
    rw [List.length_take, List.length_drop] at bounds
    simp only [decide_eq_true_eq]
    omega
  rw [spokenLines_eq_filterMap, spokenLines_eq_filterMap, lines_upTo, parted,
    List.filterMap_append, List.filter_append, List.filter_eq_self.mpr kept,
    List.filter_eq_nil_iff.mpr dropped, List.append_nil]

/-- What a text says begins with what it says up to a line. -/
theorem exists_spokenLines_upTo (count : Nat) (text : List Char) :
    ∃ later, spokenLines text = spokenLines (upTo count text) ++ later := by
  refine ⟨spoken (1 + (((lines text).take count).map trim).length)
    (((lines text).drop count).map trim), ?_⟩
  rw [spokenLines_eq_spoken, spokenLines_eq_spoken, lines_upTo, ← spoken_append, ← List.map_append,
    List.take_append_drop]

/-- The lines that say something are numbered in ascending order. -/
theorem spokenLines_ascending (text : List Char) :
    (spokenLines text).Pairwise fun first second => first.number < second.number := by
  have general : ∀ (pieces : List (List Char)) (start : Nat),
      ((pieces.zipIdx start).filterMap spoken?).Pairwise
        fun first second => first.number < second.number := by
    intro pieces
    induction pieces with
    | nil => exact fun _ => .nil
    | cons piece rest inductionHypothesis =>
        intro start
        rw [List.zipIdx_cons]
        cases said : spoken? (piece, start) with
        | none =>
            rw [List.filterMap_cons_none said]
            exact inductionHypothesis (start + 1)
        | some line =>
            rw [List.filterMap_cons_some said]
            refine .cons (fun other member => ?_) (inductionHypothesis (start + 1))
            obtain ⟨-, same⟩ := Option.ite_none_left_eq_some.mp said
            obtain rfl := Option.some.inj same
            exact (number_of_mem_spoken member).1
  exact general (lines text) 1

theorem filter_before {before after : List Line} {line : Line}
    (ascending : (before ++ line :: after).Pairwise
      fun first second => first.number < second.number) :
    (before ++ line :: after).filter (fun other => other.number < line.number) = before := by
  obtain ⟨-, ascendingAfter, apart⟩ := List.pairwise_append.mp ascending
  have kept : ∀ other ∈ before, decide (other.number < line.number) = true :=
    fun other member => decide_eq_true (apart other member line List.mem_cons_self)
  have dropped : ∀ other ∈ line :: after, ¬ decide (other.number < line.number) = true := by
    intro other member
    rw [decide_eq_true_eq]
    rcases List.mem_cons.mp member with rfl | later
    · exact Nat.lt_irrefl _
    · exact Nat.lt_asymm ((List.pairwise_cons.mp ascendingAfter).1 other later)
  rw [List.filter_append, List.filter_eq_self.mpr kept, List.filter_eq_nil_iff.mpr dropped,
    List.append_nil]

/-- A text that is cut right before one of its lines says what it says before that line. -/
theorem spokenLines_upTo_before {text : List Char} {before after : List Line} {line : Line}
    (parted : spokenLines text = before ++ line :: after) :
    spokenLines (upTo (line.number - 1) text) = before := by
  have member : line ∈ spokenLines text := by
    rw [parted]
    simp
  have positive : 1 ≤ line.number := (number_of_mem_spoken member).1
  have ascending := spokenLines_ascending text
  rw [parted] at ascending
  have same : (fun other : Line => decide (other.number ≤ line.number - 1)) =
      fun other => decide (other.number < line.number) := by
    funext other
    exact decide_eq_decide.mpr (by omega)
  rw [spokenLines_upTo, parted, same, filter_before ascending]

end Text

/-! ## Documents -/

/-- The lines before the line of a step spell the document with the steps before it. -/
theorem GraphStream.Spells.exists_before {lines : List Text.Line} {document : Document}
    (spells : Spells lines document) {count : Nat} {moment : DocumentStep}
    (found : document.steps[count]? = some moment) :
    ∃ before line after, lines = before ++ line :: after ∧ line.number = moment.number ∧
      Spells before { document with steps := document.steps.take count } := by
  obtain ⟨tagged, headed, started, nodes, steps, ascending⟩ := spells
  rename_i tag header setup nodeLines blocks
  have later := List.forall₂_drop count steps
  obtain ⟨inSteps, same⟩ := List.getElem?_eq_some_iff.mp found
  rw [List.drop_eq_getElem_cons inSteps, same] at later
  obtain ⟨block, others, isBlock, -, parted⟩ := List.forall₂_cons_right_iff.mp later
  cases isBlock with
  | @intro line rest step edges begins goesOn =>
      refine ⟨tag :: header :: setup :: (nodeLines ++ (blocks.take count).flatten), line,
        rest ++ others.flatten, ?_, rfl, ?_⟩
      · have whole : blocks.flatten =
            (blocks.take count).flatten ++ ((line :: rest) ++ others.flatten) := by
          rw [← List.flatten_cons, ← parted, ← List.flatten_append, List.take_append_drop]
        rw [whole]
        simp
      · refine .intro tagged headed started nodes (List.forall₂_take count steps) ?_
        refine ascending.sublist (List.Sublist.cons_cons 0 ?_)
        exact (List.take_sublist count document.steps).map _

namespace Document

open GraphStream

/-- A text that spells a document is cut right before the line of the step after the first `count`
ones, if there is one. -/
def textOfFirst (document : Document) (count : Nat) (text : String) : String :=
  match document.steps[count]? with
  | some moment => String.ofList (Text.upTo (moment.number - 1) text.toList)
  | none => text

/-- A graph stream that is cut right before a step is read as the document with the steps before. -/
theorem read_textOfFirst {text : String} {document : Document}
    (read : Document.read text = .ok document) (count : Nat) :
    Document.read (document.textOfFirst count text) =
      .ok { document with steps := document.steps.take count } := by
  rw [textOfFirst]
  cases found : document.steps[count]? with
  | none =>
      have all : document.steps.take count = document.steps :=
        List.take_of_length_le (List.getElem?_eq_none_iff.mp found)
      rw [all]
      exact read
  | some moment =>
      obtain ⟨before, line, after, parted, sameNumber, spells⟩ :=
        (read_eq_ok_iff.mp read).exists_before found
      rw [read_eq_ok_iff, String.toList_ofList, ← sameNumber, Text.spokenLines_upTo_before parted]
      exact spells

end Document

end ContactReplay
