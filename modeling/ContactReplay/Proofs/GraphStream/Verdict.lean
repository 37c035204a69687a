import ContactReplay.Proofs.GraphStream.Cutting

/-!
# Where reading gets stuck

A text that cannot be read ends before its setup step, or it has a line at which reading gets stuck:
one that cannot follow the lines before it.  Only these lines matter then:

* every text with the same lines up to that one is refused in the same way, whatever follows
  (`StuckAt.read_eq_of_agree`);
* what comes before can be continued to a graph stream (`exists_continuation`), as nothing but the
  rest of the first three lines may be missing.

So the number that is reported is that of the first line that no continuation can repair
(`Document.read_error_at_line`).
-/

namespace ContactReplay

/-- A text ends before its setup step. -/
def FormatError.IsUnfinished : FormatError → Prop
  | .stream .emptyStream | .stream .missingHeader | .stream .missingSetup => True
  | _ => False

/-! ## First lines -/

namespace Text

/-- Two texts have the same first lines. -/
def AgreeUpTo (count : Nat) (text other : String) : Prop :=
  (lines text.toList).take count = (lines other.toList).take count

/-- What a text says depends on its lines only. -/
theorem spokenLines_congr {text other : List Char} (same : lines text = lines other) :
    spokenLines text = spokenLines other := by
  rw [spokenLines_eq_filterMap, same, ← spokenLines_eq_filterMap]

section Agreeing

variable {count : Nat} {text other : String}

theorem AgreeUpTo.of_le (agree : AgreeUpTo count text other) {fewer : Nat}
    (less : fewer ≤ count) : AgreeUpTo fewer text other := by
  have taken := congrArg (List.take fewer) agree
  rwa [List.take_take, List.take_take, Nat.min_eq_left less] at taken

theorem AgreeUpTo.spokenLines_upTo (agree : AgreeUpTo count text other) :
    spokenLines (upTo count text.toList) = spokenLines (upTo count other.toList) :=
  spokenLines_congr (by rw [lines_upTo, lines_upTo, agree])

end Agreeing

/-- What a text says up to a line begins with what it says up to an earlier one. -/
theorem exists_spokenLines_upTo_of_le {fewer count : Nat} (less : fewer ≤ count)
    (text : List Char) :
    ∃ later, spokenLines (upTo count text) = spokenLines (upTo fewer text) ++ later := by
  have twice : lines (upTo fewer (upTo count text)) = lines (upTo fewer text) := by
    rw [lines_upTo, lines_upTo, lines_upTo, List.take_take, Nat.min_eq_left less]
  rw [← spokenLines_congr twice]
  exact exists_spokenLines_upTo fewer (upTo count text)

section Continued

variable {count : Nat} {text : List Char} {texts : List (List Char)}
  (within : count < (lines text).length) (firm : ∀ text ∈ texts, Firm text)
include within firm

/-- Firm texts may take the place of all lines from some line on. -/
theorem lines_upTo_append :
    lines (upTo count text ++ texts.flatMap (· ++ ['\n'])) = (lines text).take count ++ texts := by
  rw [lines_append (complete_upTo within), lines_upTo, lines_of_firm firm]

theorem spokenLines_upTo_append :
    spokenLines (upTo count text ++ texts.flatMap (· ++ ['\n'])) =
      spokenLines (upTo count text) ++ spoken (1 + count) texts := by
  rw [spokenLines_eq_spoken, spokenLines_eq_spoken, lines_upTo_append within firm, lines_upTo,
    List.map_append, spoken_append, map_trim_of_firm firm, List.length_map,
    List.length_take_of_le (Nat.le_of_lt within)]

end Continued

/-- A text that is cut right after one of its lines says what it says up to that line. -/
theorem spokenLines_upTo_through {text : List Char} {before after : List Line} {line : Line}
    (parted : spokenLines text = before ++ line :: after) :
    spokenLines (upTo line.number text) = before ++ [line] := by
  have ascending := spokenLines_ascending text
  rw [parted] at ascending
  obtain ⟨-, ascendingAfter, apart⟩ := List.pairwise_append.mp ascending
  have kept : ∀ other ∈ before ++ [line], decide (other.number ≤ line.number) = true := by
    intro other member
    rw [decide_eq_true_eq]
    rcases List.mem_append.mp member with earlier | same
    · exact Nat.le_of_lt (apart other earlier line List.mem_cons_self)
    · exact Nat.le_of_eq (congrArg Line.number (List.mem_singleton.mp same))
  have dropped : ∀ other ∈ after, ¬ decide (other.number ≤ line.number) = true := by
    intro other member
    rw [decide_eq_true_eq, Nat.not_le]
    exact (List.pairwise_cons.mp ascendingAfter).1 other member
  rw [spokenLines_upTo, parted, List.append_cons, List.filter_append,
    List.filter_eq_self.mpr kept, List.filter_eq_nil_iff.mpr dropped, List.append_nil]

end Text

namespace GraphStream

/-! ## Getting stuck -/

/-- The lines before a line can be read, and the line cannot follow them. -/
def StuckAt (before : List Text.Line) (line : Text.Line) (error : Error) : Prop :=
  ∃ stage, Stage.readLines .blank before = .ok stage ∧ stage.readLine line = .error error

namespace Stage

theorem exists_of_readLines_append {stage final : Stage} {first second : List Text.Line}
    (read : stage.readLines (first ++ second) = .ok final) :
    ∃ middle, stage.readLines first = .ok middle := by
  cases begun : stage.readLines first with
  | ok middle => exact ⟨middle, rfl⟩
  | error cause =>
      rw [readLines] at begun
      rw [readLines, List.foldlM_append, begun] at read
      cases read

/-- A text may end at any stage, but before its setup step it is unfinished. -/
theorem document_cases (stage : Stage) : (∃ document, stage.document = .ok document) ∨
    ∃ number cause, stage.document = .error (.format number cause) ∧ cause.IsUnfinished := by
  cases stage with
  | blank => exact Or.inr ⟨_, _, rfl, trivial⟩
  | tagged line => exact Or.inr ⟨_, _, rfl, trivial⟩
  | headed line header => exact Or.inr ⟨_, _, rfl, trivial⟩
  | body draft => exact Or.inl ⟨_, rfl⟩

/-! ## Continuing -/

/-- Lines that are enough to go on from a stage to the body. -/
def missing : Stage → List (List Char)
  | .blank => ["DGS004".toList, "graph 0 0".toList, "st 0".toList]
  | .tagged _ => ["graph 0 0".toList, "st 0".toList]
  | .headed .. => ["st 0".toList]
  | .body _ => []

theorem firm_of_mem_missing {stage : Stage} {text : List Char} (member : text ∈ stage.missing) :
    Text.Firm text := by
  have firm : ∀ word ∈ ["DGS004".toList, "graph 0 0".toList, "st 0".toList], Text.Firm word := by
    intro word listed
    simp only [List.mem_cons, List.not_mem_nil, or_false] at listed
    rcases listed with rfl | rfl | rfl
    · exact ⟨⟨'D', by decide⟩, ⟨'4', by decide⟩, by decide⟩
    · exact ⟨⟨'g', by decide⟩, ⟨'0', by decide⟩, by decide⟩
    · exact ⟨⟨'s', by decide⟩, ⟨'0', by decide⟩, by decide⟩
  apply firm
  cases stage with
  | blank => exact member
  | tagged line => exact List.mem_cons_of_mem _ member
  | headed line header => exact List.mem_cons_of_mem _ (List.mem_cons_of_mem _ member)
  | body draft => cases member

theorem numeral_zero : Text.Numeral "0".toList 0 := Text.numeral?_eq_some_iff.mp (by decide +kernel)

theorem readLines_tag (number : Nat) (rest : List (List Char)) :
    readLines .blank (Text.spoken number ("DGS004".toList :: rest)) =
      readLines (.tagged number) (Text.spoken (number + 1) rest) := by
  rw [Text.spoken_cons_of_loud (by decide)]
  exact readLines_cons_of_readText (readText_blank_eq_ok_iff.mpr ⟨rfl, rfl⟩) _

theorem readLines_header (line number : Nat) (rest : List (List Char)) :
    readLines (.tagged line) (Text.spoken number ("graph 0 0".toList :: rest)) =
      readLines (.headed number ⟨"graph", 0, 0⟩) (Text.spoken (number + 1) rest) := by
  have words : Text.words "graph 0 0".toList = ["graph", "0", "0"] := by decide +kernel
  rw [Text.spoken_cons_of_loud (by decide)]
  refine readLines_cons_of_readText (readText_tagged_eq_ok_iff.mpr ⟨_, ?_, rfl⟩) _
  exact ⟨"0", "0", words, numeral_zero, numeral_zero⟩

theorem readLines_setup (line number : Nat) (header : Header) (rest : List (List Char)) :
    readLines (.headed line header) (Text.spoken number ("st 0".toList :: rest)) =
      readLines (.body { header }) (Text.spoken (number + 1) rest) := by
  have words : Text.words "st 0".toList = ["st", "0"] := by decide +kernel
  have visible : Text.isBlank 's' = false := by decide
  rw [Text.spoken_cons_of_loud (by decide)]
  refine readLines_cons_of_readText ((readText_headed_eq_ok_iff rfl visible).mpr ⟨?_, rfl⟩) _
  exact ⟨"0", words, numeral_zero⟩

theorem exists_readLines_missing (stage : Stage) (number : Nat) :
    ∃ draft, stage.readLines (Text.spoken number stage.missing) = .ok (.body draft) := by
  cases stage with
  | blank => exact ⟨_, by rw [missing, readLines_tag, readLines_header, readLines_setup]; rfl⟩
  | tagged line => exact ⟨_, by rw [missing, readLines_header, readLines_setup]; rfl⟩
  | headed line header => exact ⟨_, by rw [missing, readLines_setup]; rfl⟩
  | body draft => exact ⟨draft, rfl⟩

end Stage

end GraphStream

/-! ## Whole texts -/

namespace Document

open GraphStream

theorem read_eq_document {text : String} {stage : Stage}
    (read : Stage.readLines .blank (Text.spokenLines text.toList) = .ok stage) :
    Document.read text = stage.document := by
  rw [Document.read, ← Stage.readLines, read]
  rfl

end Document

/-- A line that cannot follow the lines before it decides, whatever comes after it. -/
theorem GraphStream.StuckAt.read_eq {before after : List Text.Line} {line : Text.Line}
    {error : Error} (stuck : StuckAt before line error) {text : String}
    (parted : Text.spokenLines text.toList = before ++ line :: after) :
    Document.read text = .error error := by
  obtain ⟨stage, begun, refused⟩ := stuck
  rw [Document.read, ← Stage.readLines, parted, Stage.readLines_append begun, Stage.readLines,
    List.foldlM_cons, refused]
  rfl

/-- So a text is refused in the same way with other lines after the one at which reading gets
stuck. -/
theorem GraphStream.StuckAt.read_eq_of_agree {before after : List Text.Line} {line : Text.Line}
    {error : Error} (stuck : StuckAt before line error) {text : String}
    (parted : Text.spokenLines text.toList = before ++ line :: after) {other : String}
    (agree : Text.AgreeUpTo line.number text other) : Document.read other = .error error := by
  obtain ⟨later, continued⟩ := Text.exists_spokenLines_upTo line.number other.toList
  rw [← agree.spokenLines_upTo, Text.spokenLines_upTo_through parted, ← List.append_cons]
    at continued
  exact stuck.read_eq continued

namespace Document

open GraphStream

/-- A text is refused because it ends before its setup step, or because of a line. -/
theorem isUnfinished_or_stuckAt {text : String} {error : Error}
    (failed : Document.read text = .error error) :
    (∃ number cause, error = .format number cause ∧ cause.IsUnfinished) ∨
      ∃ before line after, Text.spokenLines text.toList = before ++ line :: after ∧
        StuckAt before line error := by
  cases read : Stage.readLines .blank (Text.spokenLines text.toList) with
  | error cause =>
      rw [Document.read, ← Stage.readLines, read] at failed
      cases failed
      obtain ⟨before, line, after, stage, parted, begun, refused⟩ :=
        Stage.exists_of_readLines_eq_error read
      exact Or.inr ⟨before, line, after, parted, stage, begun, refused⟩
  | ok stage =>
      rw [read_eq_document read] at failed
      rcases stage.document_cases with ⟨document, finished⟩ | ⟨number, cause, ended, unfinished⟩
      · rw [finished] at failed
        cases failed
      · rw [ended] at failed
        exact Or.inl ⟨number, cause, (Except.error.inj failed).symm, unfinished⟩

/-- A text that does not just end too early is reported at the line at which reading gets stuck. -/
theorem exists_stuckAt {text : String} {number : Nat} {cause : FormatError}
    (failed : Document.read text = .error (.format number cause))
    (broken : ¬cause.IsUnfinished) :
    ∃ before line after, Text.spokenLines text.toList = before ++ line :: after ∧
      StuckAt before line (.format number cause) ∧ line.number = number := by
  rcases isUnfinished_or_stuckAt failed with
    ⟨place, reason, same, unfinished⟩ | ⟨before, line, after, parted, stuck⟩
  · cases same
    exact absurd unfinished broken
  · obtain ⟨stage, begun, refused⟩ := id stuck
    obtain ⟨reason, same⟩ := Stage.exists_of_readLine_eq_error refused
    cases same
    exact ⟨before, line, after, parted, stuck, rfl⟩

/-- First lines that can be read are those of a graph stream. -/
theorem exists_continuation {text : String} {count : Nat} {stage : Stage}
    (within : count < (Text.lines text.toList).length)
    (read : Stage.readLines .blank (Text.spokenLines (Text.upTo count text.toList)) = .ok stage) :
    ∃ other document, Text.AgreeUpTo count text other ∧ Document.read other = .ok document := by
  have firm : ∀ line ∈ stage.missing, Text.Firm line := fun line => Stage.firm_of_mem_missing
  have length : ((Text.lines text.toList).take count).length = count :=
    List.length_take_of_le (Nat.le_of_lt within)
  obtain ⟨draft, finished⟩ := stage.exists_readLines_missing (1 + count)
  refine ⟨String.ofList (Text.upTo count text.toList ++ stage.missing.flatMap (· ++ ['\n'])),
    draft.document, ?_, ?_⟩
  · rw [Text.AgreeUpTo, String.toList_ofList, Text.lines_upTo_append within firm,
      List.take_left' length]
  · refine @read_eq_document _ (.body draft) ?_
    rw [String.toList_ofList, Text.spokenLines_upTo_append within firm,
      Stage.readLines_append read, finished]

/-- A text that is refused for one of its lines, not because it ends too early, is refused at the
first line that no continuation can repair.  Every text with the same lines up to that one is
refused in the same way, a text of the lines before it is read or ends too early, and exactly these
first lines are those of a graph stream. -/
theorem read_error_at_line {text : String} {number : Nat} {cause : FormatError}
    (failed : Document.read text = .error (.format number cause))
    (broken : ¬cause.IsUnfinished) :
    (1 ≤ number ∧ number ≤ (Text.lines text.toList).length) ∧
    (∀ other, Text.AgreeUpTo number text other →
      Document.read other = .error (.format number cause)) ∧
    (∀ before : String, Text.lines before.toList = (Text.lines text.toList).take (number - 1) →
      (∃ document, Document.read before = .ok document) ∨
        ∃ last unfinished, Document.read before = .error (.format last unfinished) ∧
          unfinished.IsUnfinished) ∧
    ∀ count, (∃ other document, Text.AgreeUpTo count text other ∧
      Document.read other = .ok document) ↔ count < number := by
  obtain ⟨before, line, after, parted, stuck, rfl⟩ := exists_stuckAt failed broken
  obtain ⟨stage, begun, -⟩ := id stuck
  have member : line ∈ Text.spokenLines text.toList := by
    rw [parted]
    exact List.mem_append_right _ List.mem_cons_self
  have bounds : 1 ≤ line.number ∧ line.number < 1 + (Text.lines text.toList).length :=
    Text.number_of_mem_spoken member
  have within : line.number ≤ (Text.lines text.toList).length := by omega
  refine ⟨⟨bounds.1, within⟩, fun other => stuck.read_eq_of_agree parted, fun earlier same => ?_,
    fun count => ⟨?_, fun fewer => ?_⟩⟩
  · have said : Text.spokenLines earlier.toList = before := by
      rw [← Text.spokenLines_upTo_before parted]
      exact Text.spokenLines_congr (by rw [Text.lines_upTo, same])
    rw [read_eq_document (said ▸ begun)]
    exact stage.document_cases
  · rintro ⟨other, document, agree, read⟩
    by_contra enough
    rw [stuck.read_eq_of_agree parted (agree.of_le (Nat.not_lt.mp enough))] at read
    cases read
  · obtain ⟨later, continued⟩ :=
      Text.exists_spokenLines_upTo_of_le (Nat.le_sub_one_of_lt fewer) text.toList
    rw [Text.spokenLines_upTo_before parted] at continued
    rw [continued] at begun
    obtain ⟨middle, read⟩ := Stage.exists_of_readLines_append begun
    exact exists_continuation (Nat.lt_of_lt_of_le fewer within) read

/-- A comment and a nameless node after the setup step: the line of the node decides. -/
theorem read_error_at_line_six :
    (1 ≤ 6 ∧ 6 ≤ (Text.lines "DGS004\n# c\ng 1 1\nst 0\nan a\nan\nfoo".toList).length) ∧
    (∀ other, Text.AgreeUpTo 6 "DGS004\n# c\ng 1 1\nst 0\nan a\nan\nfoo" other →
      Document.read other = .error (.format 6 (.stream .namelessNode))) ∧
    (∀ before : String, Text.lines before.toList =
        (Text.lines "DGS004\n# c\ng 1 1\nst 0\nan a\nan\nfoo".toList).take (6 - 1) →
      (∃ document, Document.read before = .ok document) ∨
        ∃ last unfinished, Document.read before = .error (.format last unfinished) ∧
          unfinished.IsUnfinished) ∧
    ∀ count, (∃ other document,
      Text.AgreeUpTo count "DGS004\n# c\ng 1 1\nst 0\nan a\nan\nfoo" other ∧
        Document.read other = .ok document) ↔ count < 6 :=
  read_error_at_line (by decide +kernel) not_false

end Document

end ContactReplay
