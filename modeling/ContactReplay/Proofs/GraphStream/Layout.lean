import ContactReplay.Proofs.GraphStream.Grammar

/-!
# The layout of a graph stream

Blank lines, comments and the blanks around a line are layout: `SilentLine` and `Margins` say what
they look like, and reading trims them away.  Two texts with the same contents are compared line by
line: a `LayoutChange` gives a line other margins, puts a silent line in or takes one out, and
`newPlace` tells where the lines of the first text stand in the second one.

Reading sees nothing of the layout but the numbers of the lines.  So it commutes with a renumbering:
that of a line, of what has been read so far, and of what comes out
(`Document.read_of_layoutChanges`).
-/

namespace ContactReplay

/-! ## Layout -/

namespace Text

/-- Blanks at the start and at the end of a line. -/
structure Margins where
  front : List Char := []
  back : List Char := []
  blank : (front ++ back).all isBlank = true := by decide

def Margins.around (margins : Margins) (line : List Char) : List Char :=
  margins.front ++ line ++ margins.back

/-- A blank line or a comment. -/
inductive SilentLine where
  | blank (text : List Char) (blank : text.all isBlank = true)
  | comment (front rest : List Char) (blank : front.all isBlank = true)

def SilentLine.text : SilentLine → List Char
  | .blank text _ => text
  | .comment front rest _ => front ++ '#' :: rest

theorem trimStart_append {front : List Char} (blank : ∀ character ∈ front, isBlank character = true)
    (text : List Char) : trimStart (front ++ text) = trimStart text :=
  List.dropWhile_append_of_pos blank

theorem trimStart_of_blank {text : List Char}
    (blank : ∀ character ∈ text, isBlank character = true) : trimStart text = [] := by
  have gone := trimStart_append blank []
  rw [List.append_nil] at gone
  exact gone

theorem trimEnd_append {back : List Char} (blank : ∀ character ∈ back, isBlank character = true)
    (text : List Char) : trimEnd (text ++ back) = trimEnd text := by
  have blankReversed : ∀ character ∈ back.reverse, isBlank character = true :=
    fun character member => blank character (List.mem_reverse.mp member)
  rw [trimEnd, List.reverse_append, List.dropWhile_append_of_pos blankReversed, trimEnd]

@[simp]
theorem trim_around (margins : Margins) (line : List Char) :
    trim (margins.around line) = trim line := by
  have blank := List.all_eq_true.mp margins.blank
  have blankFront : ∀ character ∈ margins.front, isBlank character = true :=
    fun character member => blank character (List.mem_append_left _ member)
  have blankBack : ∀ character ∈ margins.back, isBlank character = true :=
    fun character member => blank character (List.mem_append_right _ member)
  rw [Margins.around, List.append_assoc, trim, trimStart_append blankFront, trim, trimStart,
    trimStart, List.dropWhile_append]
  cases shape : line.dropWhile isBlank with
  | nil =>
      -- Nothing is left of the line, so the blanks behind it go with those in front.
      have gone : margins.back.dropWhile isBlank = [] := trimStart_of_blank blankBack
      rw [if_pos List.isEmpty_nil, gone]
  | cons first rest => rw [if_neg (by simp), trimEnd_append blankBack]

theorem SilentLine.isSilent_trim (line : SilentLine) : isSilent (trim line.text) = true := by
  cases line with
  | blank blanks blank =>
      rw [text, trim, trimStart_of_blank (List.all_eq_true.mp blank)]
      rfl
  | comment front rest blank =>
      have started : trimStart ('#' :: rest) = '#' :: rest := trimStart_eq_self rfl (by decide)
      rw [text, trim, trimStart_append (List.all_eq_true.mp blank), started]
      cases shape : trimEnd ('#' :: rest) with
      | nil => rfl
      | cons first others =>
          have begins := trimEnd_prefix ('#' :: rest)
          rw [shape, List.cons_prefix_cons] at begins
          rw [begins.1]
          rfl

end Text

/-! ## Changes of the layout -/

/-- How a line of one text is found in another text with the same contents. -/
inductive LayoutChange where
  | respace (line : List Char) (old new : Text.Margins)
  | insert (line : Text.SilentLine)
  | remove (line : Text.SilentLine)

namespace LayoutChange

def old? : LayoutChange → Option (List Char)
  | .respace line old _ => some (old.around line)
  | .insert _ => none
  | .remove line => some line.text

def new? : LayoutChange → Option (List Char)
  | .respace line _ new => some (new.around line)
  | .insert line => some line.text
  | .remove _ => none

/-- The new place of a line, by its old one; places are counted from one, and there is no line at
the place zero. -/
def newPlace : List LayoutChange → Nat → Nat
  | _, 0 => 0
  | [], place + 1 => place + 1
  | .respace .. :: rest, place + 1 => newPlace rest place + 1
  | .insert .. :: rest, place + 1 => newPlace rest (place + 1) + 1
  | .remove .. :: rest, place + 1 => newPlace rest place

@[simp]
theorem newPlace_zero (changes : List LayoutChange) : newPlace changes 0 = 0 := by
  cases changes <;> rfl

/-- Where a line stands depends on the lines before it: as many as are left of them stand before
it. -/
theorem newPlace_respace (earlier : List LayoutChange) (line : List Char) (old new : Text.Margins)
    (later : List LayoutChange) :
    newPlace (earlier ++ .respace line old new :: later) ((earlier.filterMap old?).length + 1) =
      (earlier.filterMap new?).length + 1 := by
  induction earlier with
  | nil => simp only [List.nil_append, List.filterMap_nil, List.length_nil, newPlace, newPlace_zero]
  | cons change rest inductionHypothesis =>
      cases change <;>
        simp only [List.cons_append, List.filterMap_cons, old?, new?, List.length_cons, newPlace,
          inductionHypothesis]

end LayoutChange

/-! ## Renumbering -/

def Text.Line.renumber (place : Nat → Nat) (line : Text.Line) : Text.Line :=
  { line with number := place line.number }

@[simp]
theorem Text.Line.text_renumber (place : Nat → Nat) (line : Text.Line) :
    (line.renumber place).text = line.text := rfl

@[simp]
theorem Text.Line.number_renumber (place : Nat → Nat) (line : Text.Line) :
    (line.renumber place).number = place line.number := rfl

def EdgeLine.renumber (place : Nat → Nat) : EdgeLine → EdgeLine
  | .add edge first second number => .add edge first second (place number)
  | .delete edge number => .delete edge (place number)

def DocumentStep.renumber (place : Nat → Nat) (moment : DocumentStep) : DocumentStep where
  step := moment.step
  number := place moment.number
  lines := moment.lines.map (EdgeLine.renumber place)

def Document.renumber (place : Nat → Nat) (document : Document) : Document :=
  { document with steps := document.steps.map (DocumentStep.renumber place) }

def Error.renumber (place : Nat → Nat) : Error → Error
  | .format line cause => .format (place line) cause
  | other => other

namespace GraphStream

def Draft.renumber (place : Nat → Nat) (draft : Draft) : Draft :=
  { draft with steps := draft.steps.map (DocumentStep.renumber place) }

def Stage.renumber (place : Nat → Nat) : Stage → Stage
  | .blank => .blank
  | .tagged line => .tagged (place line)
  | .headed line header => .headed (place line) header
  | .body draft => .body (draft.renumber place)

/-! ## Reading renumbered lines -/

variable (place : Nat → Nat)

theorem readAddition_renumber (line : List Char) (number : Nat) (operands : List String) :
    readAddition line (place number) operands =
      (readAddition line number operands).map (EdgeLine.renumber place) := by
  unfold readAddition
  split
  · rfl
  · split
    · split <;> rfl
    · rfl

theorem readDeletion_renumber (line : List Char) (number : Nat) (operands : List String) :
    readDeletion line (place number) operands =
      (readDeletion line number operands).map (EdgeLine.renumber place) := by
  unfold readDeletion
  split <;> rfl

namespace Draft

theorem currentStep_renumber (draft : Draft) :
    (draft.renumber place).currentStep = draft.currentStep := by
  obtain ⟨header, nodes, steps⟩ := draft
  cases steps <;> rfl

theorem openStep_renumber (draft : Draft) (line : Text.Line) :
    (draft.renumber place).openStep (line.renumber place) =
      (draft.openStep line).map (Draft.renumber place) := by
  rw [openStep, openStep, Text.Line.text_renumber, currentStep_renumber]
  cases readStepNumber line.text with
  | error cause => rfl
  | ok step =>
      by_cases late : step ≤ draft.currentStep
      · simp only [bind, Except.bind, late, if_true]
        rfl
      · simp only [bind, Except.bind, late, if_false]
        rfl

theorem readSetupLine_renumber (draft : Draft) (line : Text.Line) (word : String)
    (operands : List String) :
    (draft.renumber place).readSetupLine (line.renumber place) word operands =
      (draft.readSetupLine line word operands).map (Draft.renumber place) := by
  unfold readSetupLine
  split
  · exact openStep_renumber place draft line
  all_goals rfl

theorem readStepLine_renumber (draft : Draft) (current : DocumentStep)
    (earlier : List DocumentStep) (line : Text.Line) (word : String) (operands : List String) :
    (draft.renumber place).readStepLine (current.renumber place)
        (earlier.map (DocumentStep.renumber place)) (line.renumber place) word operands =
      (draft.readStepLine current earlier line word operands).map (Draft.renumber place) := by
  rw [readStepLine, readStepLine]
  split
  · exact openStep_renumber place draft line
  · rfl
  · rw [Text.Line.text_renumber, Text.Line.number_renumber, readAddition_renumber]
    cases readAddition line.text line.number operands <;> rfl
  · rw [Text.Line.text_renumber, Text.Line.number_renumber, readDeletion_renumber]
    cases readDeletion line.text line.number operands <;> rfl
  · rfl

theorem readLine_renumber (draft : Draft) (line : Text.Line) :
    (draft.renumber place).readLine (line.renumber place) =
      (draft.readLine line).map (Draft.renumber place) := by
  rw [readLine, readLine, Text.Line.text_renumber]
  cases Text.words line.text with
  | nil => rfl
  | cons word operands =>
      obtain ⟨header, nodes, steps⟩ := draft
      cases steps with
      | nil => exact readSetupLine_renumber place _ line word operands
      | cons current earlier => exact readStepLine_renumber place _ current earlier line word operands

theorem document_renumber (draft : Draft) :
    (draft.renumber place).document = draft.document.renumber place := by
  simp only [document, Document.renumber, renumber, DocumentStep.renumber, List.map_reverse,
    List.map_map, Function.comp_def]

end Draft

namespace Stage

theorem readText_renumber (stage : Stage) (line : Text.Line) :
    (stage.renumber place).readText (line.renumber place) =
      (stage.readText line).map (Stage.renumber place) := by
  cases stage with
  | blank =>
      rw [renumber, readText, readText, Text.Line.text_renumber]
      split <;> rfl
  | tagged number =>
      rw [renumber, readText, readText, Text.Line.text_renumber]
      cases readHeader line.text <;> rfl
  | headed number header =>
      rw [renumber, readText, readText, Text.Line.text_renumber]
      cases readSetup line.text <;> rfl
  | body draft =>
      rw [renumber, readText, readText, Draft.readLine_renumber]
      cases draft.readLine line <;> rfl

theorem readLine_renumber (stage : Stage) (line : Text.Line) :
    (stage.renumber place).readLine (line.renumber place) =
      ((stage.readLine line).map (Stage.renumber place)).mapError (Error.renumber place) := by
  rw [Stage.readLine, Stage.readLine, readText_renumber]
  cases stage.readText line <;> rfl

theorem readLines_renumber (stage : Stage) (lines : List Text.Line) :
    (stage.renumber place).readLines (lines.map (Text.Line.renumber place)) =
      ((stage.readLines lines).map (Stage.renumber place)).mapError (Error.renumber place) := by
  induction lines generalizing stage with
  | nil => rfl
  | cons line rest inductionHypothesis =>
      rw [List.map_cons, readLines, readLines, List.foldlM_cons, List.foldlM_cons,
        readLine_renumber]
      cases stage.readLine line with
      | error cause => rfl
      | ok next => exact inductionHypothesis next

/-- An empty text has no last line, so there is none to renumber. -/
theorem document_renumber (still : place 0 = 0) (stage : Stage) :
    (stage.renumber place).document =
      (stage.document.map (Document.renumber place)).mapError (Error.renumber place) := by
  cases stage with
  | blank =>
      rw [renumber, document, Except.map, Except.mapError, Error.renumber, still]
  | tagged line => rfl
  | headed line header => rfl
  | body draft => exact congrArg Except.ok (draft.document_renumber place)

end Stage

end GraphStream

/-! ## Whole texts -/

namespace LayoutChange

/-- What two texts say is the same up to the numbers of the lines.  Here `before` and `after` lines
precede what the changes are about. -/
theorem spoken_new {changes : List LayoutChange} (before after : Nat) {place : Nat → Nat}
    (follows : ∀ ahead, place (before + (ahead + 1)) = after + newPlace changes (ahead + 1)) :
    Text.spoken (after + 1) ((changes.filterMap new?).map Text.trim) =
      (Text.spoken (before + 1) ((changes.filterMap old?).map Text.trim)).map
        (Text.Line.renumber place) := by
  -- A line that stays is counted on both sides, one that goes in or out on one side only.
  induction changes generalizing before after with
  | nil => rfl
  | cons change rest inductionHypothesis =>
      cases change with
      | respace line old new =>
          have here : place (before + 1) = after + 1 := by
            rw [follows 0, newPlace, newPlace_zero]
          have later := inductionHypothesis (before + 1) (after + 1) fun ahead => by
            rw [show before + 1 + (ahead + 1) = before + (ahead + 1 + 1) by omega, follows, newPlace]
            omega
          simp only [List.filterMap_cons, old?, new?, List.map_cons, Text.trim_around]
          cases silent : Text.isSilent (Text.trim line) with
          | true => rw [Text.spoken_cons_of_silent silent, Text.spoken_cons_of_silent silent, later]
          | false =>
              rw [Text.spoken_cons_of_loud silent, Text.spoken_cons_of_loud silent, List.map_cons,
                later, Text.Line.renumber, here]
      | insert line =>
          have later := inductionHypothesis before (after + 1) fun ahead => by
            rw [follows, newPlace]
            omega
          simp only [List.filterMap_cons, old?, new?, List.map_cons]
          rw [Text.spoken_cons_of_silent line.isSilent_trim, later]
      | remove line =>
          have later := inductionHypothesis (before + 1) after fun ahead => by
            rw [show before + 1 + (ahead + 1) = before + (ahead + 1 + 1) by omega, follows, newPlace]
          simp only [List.filterMap_cons, old?, new?, List.map_cons]
          rw [Text.spoken_cons_of_silent line.isSilent_trim, later]

end LayoutChange

namespace Document

open LayoutChange GraphStream

/-- Reading commutes with a renumbering of the lines. -/
theorem read_of_spokenLines_renumber {text other : String} {place : Nat → Nat}
    (still : place 0 = 0) (renumbered : Text.spokenLines other.toList =
      (Text.spokenLines text.toList).map (Text.Line.renumber place)) :
    Document.read other =
      ((Document.read text).map (Document.renumber place)).mapError (Error.renumber place) := by
  have taken := Stage.readLines_renumber place .blank (Text.spokenLines text.toList)
  rw [← renumbered, Stage.renumber] at taken
  rw [Document.read, Document.read, ← Stage.readLines, ← Stage.readLines, taken]
  cases Stage.readLines .blank (Text.spokenLines text.toList) with
  | error cause => rfl
  | ok stage => exact stage.document_renumber place still

/-- Texts that differ in their layout only are read as the same document or refused for the same
reason, with every line under its new number; no line keeps the number zero. -/
theorem read_of_layoutChanges {text other : String} {changes : List LayoutChange}
    (before : Text.lines text.toList = changes.filterMap old?)
    (after : Text.lines other.toList = changes.filterMap new?) :
    Document.read other = ((Document.read text).map (Document.renumber (newPlace changes))).mapError
      (Error.renumber (newPlace changes)) ∧
    newPlace changes 0 = 0 ∧
    ∀ earlier line old new later, changes = earlier ++ .respace line old new :: later →
      newPlace changes ((earlier.filterMap old?).length + 1) =
        (earlier.filterMap new?).length + 1 := by
  refine ⟨read_of_spokenLines_renumber (newPlace_zero changes) ?_, newPlace_zero changes, ?_⟩
  · rw [Text.spokenLines_eq_spoken, Text.spokenLines_eq_spoken, before, after]
    exact spoken_new 0 0 fun ahead => by rw [Nat.zero_add, Nat.zero_add]
  · rintro earlier line old new later rfl
    exact newPlace_respace earlier line old new later

/-- Two blank lines go in at the front, a comment moves down, and three lines get blanks. -/
theorem read_of_layoutChanges_commented :
    Document.read "DGS004\n#\ng 1 1\nst 0\nst 2\nde e" =
      .ok ⟨⟨"g", 1, 1⟩, [], [⟨2, 5, [.delete "e" 6]⟩]⟩ ∧
    Document.read "\n\n DGS004\ng 1 1 \nst 0\n\tst 2\n#\nde e" =
      .ok ⟨⟨"g", 1, 1⟩, [], [⟨2, 6, [.delete "e" 8]⟩]⟩ := by
  have read : Document.read "DGS004\n#\ng 1 1\nst 0\nst 2\nde e" =
      .ok ⟨⟨"g", 1, 1⟩, [], [⟨2, 5, [.delete "e" 6]⟩]⟩ := by decide +kernel
  have moved := (@read_of_layoutChanges "DGS004\n#\ng 1 1\nst 0\nst 2\nde e"
    "\n\n DGS004\ng 1 1 \nst 0\n\tst 2\n#\nde e"
    [.insert (.blank [] rfl), .insert (.blank [] rfl),
      .respace "DGS004".toList {} { front := [' '] }, .remove (.comment [] [] rfl),
      .respace "g 1 1".toList {} { back := [' '] }, .respace "st 0".toList {} {},
      .respace "st 2".toList {} { front := ['\t'] }, .insert (.comment [] [] rfl),
      .respace "de e".toList {} {}]
    (by decide +kernel) (by decide +kernel)).1
  rw [read] at moved
  exact ⟨read, moved.trans (by decide +kernel)⟩

end Document

end ContactReplay
