import ContactReplay.Proofs.Contact.Lines
import ContactReplay.Proofs.GraphStream.Layout
import Mathlib.Data.List.Induction
import Mathlib.Data.List.TakeWhile

/-!
# The columns of a contact trace

A line is trimmed before it is cut at its tabs, and a tab is a blank.  So blank columns at the front
of a line fall away with the tabs behind them (`exists_fields_trim`), and the columns that follow
move up; blank columns at the end fall away, too, but no contact is read off those.

`Positional` says that a text is read by the places of its columns.  `columns_positional_iff` says
what its contacts are read off instead and which texts are read by the places nevertheless.
-/

namespace ContactReplay

namespace Text

/-- The columns of a line without the blank ones at the front. -/
def unindentedFields (line : List Char) : List (List Char) := (fields line).dropWhile List.isEmpty

theorem unindentedFields_eq_fields {line : List Char} (visible : (fields line)[0]? ≠ some []) :
    unindentedFields line = fields line := by
  rw [unindentedFields]
  cases columns : fields line with
  | nil => rfl
  | cons first others =>
      rw [columns] at visible
      have nonempty : first ≠ [] := fun blank => visible (by rw [blank]; rfl)
      exact List.dropWhile_cons_of_neg (by simpa using nonempty)

/-! ## Blanks at the front -/

theorem trim_cons_of_blank {character : Char} (blank : isBlank character = true)
    (text : List Char) : trim (character :: text) = trim text := by
  rw [trim, trimStart, List.dropWhile_cons_of_pos blank, ← trimStart, ← trim]

theorem trim_cons_ne_nil {character : Char} (visible : isBlank character = false)
    (text : List Char) : trim (character :: text) ≠ [] := by
  rw [trim, trimStart, List.dropWhile_cons_of_neg (by simp [visible]), trimEnd, ne_eq,
    List.reverse_eq_nil_iff, List.dropWhile_eq_nil_iff]
  intro blank
  exact Bool.false_ne_true (visible.symm.trans (blank character (by simp)))

theorem fields_cons_tab (rest : List Char) : fields ('\t' :: rest) = [] :: fields rest := rfl

theorem exists_fields_cons {character : Char} (joins : character ≠ '\t') (rest : List Char) :
    ∃ piece others, fields rest = trim piece :: others ∧
      fields (character :: rest) = trim (character :: piece) :: others := by
  obtain ⟨piece, pieces, shape⟩ :=
    List.exists_cons_of_ne_nil (splitAt_ne_nil (· == '\t') rest)
  refine ⟨piece, pieces.map trim, ?_, ?_⟩
  · rw [fields, shape, List.map_cons]
  · rw [fields, splitAt, if_neg (by simpa using joins), shape, consFirst, List.map_cons]

/-- Blanks at the front of a line take the blank columns at the front with them. -/
theorem fields_trimStart {line : List Char} (visible : trimStart line ≠ []) :
    fields (trimStart line) = unindentedFields line := by
  induction line with
  | nil => exact absurd rfl visible
  | cons character rest inductionHypothesis =>
      cases blank : isBlank character with
      | true =>
          have started : trimStart (character :: rest) = trimStart rest :=
            List.dropWhile_cons_of_pos blank
          rw [started] at visible ⊢
          rw [inductionHypothesis visible, unindentedFields, unindentedFields]
          by_cases tab : character = '\t'
          · subst tab
            rw [fields_cons_tab, List.dropWhile_cons_of_pos rfl]
          · obtain ⟨piece, others, restFields, allFields⟩ := exists_fields_cons tab rest
            rw [restFields, allFields, trim_cons_of_blank blank]
      | false =>
          have joins : character ≠ '\t' := by
            rintro rfl
            exact absurd blank (by decide)
          have started : trimStart (character :: rest) = character :: rest :=
            List.dropWhile_cons_of_neg (by simp [blank])
          obtain ⟨piece, others, -, allFields⟩ := exists_fields_cons joins rest
          rw [started, unindentedFields_eq_fields]
          rw [allFields]
          simpa using trim_cons_ne_nil blank piece

/-! ## Blanks at the end -/

theorem exists_splitAt_concat (separates : Char → Bool) {character : Char}
    (joins : separates character = false) (text : List Char) :
    ∃ pieces last, splitAt separates text = pieces ++ [last] ∧
      splitAt separates (text ++ [character]) = pieces ++ [last ++ [character]] := by
  induction text with
  | nil => exact ⟨[], [], rfl, by simp [splitAt, joins, consFirst]⟩
  | cons head tail inductionHypothesis =>
      obtain ⟨pieces, last, before, after⟩ := inductionHypothesis
      rw [List.cons_append, splitAt, splitAt, before, after]
      split
      · exact ⟨[] :: pieces, last, rfl, rfl⟩
      · cases pieces with
        | nil => exact ⟨[], head :: last, rfl, rfl⟩
        | cons first others => exact ⟨(head :: first) :: others, last, rfl, rfl⟩

theorem fields_append_blank {blank : Char} (isBlank : isBlank blank = true) (joins : blank ≠ '\t')
    (text : List Char) : fields (text ++ [blank]) = fields text := by
  obtain ⟨pieces, last, before, after⟩ :=
    exists_splitAt_concat (· == '\t') (by simpa using joins) text
  have trimmed : trim (last ++ [blank]) = trim last :=
    trim_around ⟨[], [blank], by simp [isBlank]⟩ last
  rw [fields, after, fields, before, List.map_append, List.map_append, List.map_singleton,
    List.map_singleton, trimmed]

/-- Blanks at the end of a line make up blank columns, one for each tab. -/
theorem fields_append_blanks {back : List Char}
    (blank : ∀ character ∈ back, isBlank character = true) (text : List Char) :
    fields (text ++ back) = fields text ++ List.replicate (back.count '\t') [] := by
  induction back using List.reverseRecOn with
  | nil => simp
  | append_singleton back last inductionHypothesis =>
      have before := inductionHypothesis fun character member =>
        blank character (List.mem_append_left _ member)
      rw [← List.append_assoc, List.count_append]
      by_cases tab : last = '\t'
      · subst tab
        have cut : fields ((text ++ back) ++ ['\t']) = fields (text ++ back) ++ [[]] := by
          rw [fields, splitAt_append_separator (by decide), List.map_append]
          rfl
        rw [cut, before, List.append_assoc, ← List.replicate_succ']
        rfl
      · rw [fields_append_blank (blank last (by simp)) tab, before,
          List.count_singleton, if_neg (by simpa using tab), Nat.add_zero]

theorem exists_trimStart_eq (line : List Char) : ∃ back : List Char,
    (∀ character ∈ back, isBlank character = true) ∧ trimStart line = trim line ++ back := by
  refine ⟨((trimStart line).reverse.takeWhile isBlank).reverse, ?_, ?_⟩
  · intro character member
    exact List.mem_takeWhile_imp (List.mem_reverse.mp member)
  · rw [trim, trimEnd, ← List.reverse_append, List.takeWhile_append_dropWhile, List.reverse_reverse]

/-- The columns of a trimmed line are those of the line without the blank ones at either end. -/
theorem exists_fields_trim {line : List Char} (visible : trim line ≠ []) :
    ∃ count, unindentedFields line = fields (trim line) ++ List.replicate count [] := by
  obtain ⟨back, blank, started⟩ := exists_trimStart_eq line
  have startVisible : trimStart line ≠ [] := by
    rw [started]
    exact List.append_ne_nil_of_left_ne_nil visible back
  exact ⟨_, by rw [← fields_trimStart startVisible, started, fields_append_blanks blank]⟩

end Text

namespace Contact

/-! ## Single lines -/

theorem ReadOff.readName_eq {contact : Contact} {columns : List (List Char)}
    (told : contact.ReadOff columns) : columns[0]? ≠ some [] ∧ columns[1]? ≠ some [] := by
  obtain ⟨observer, observed, start, stop, others, rfl, observerRead, observedRead, -⟩ := told
  constructor
  · rintro ⟨⟩
    cases observerRead
  · rintro ⟨⟩
    cases observedRead

/-- Nothing is read off blank columns at the end. -/
theorem readOff_append_blank_iff {contact : Contact} {columns : List (List Char)} {count : Nat} :
    contact.ReadOff (columns ++ List.replicate count []) ↔ contact.ReadOff columns := by
  constructor
  · rintro ⟨observer, observed, start, stop, others, shape, observerRead, observedRead, startRead,
      stopRead⟩
    rcases Nat.lt_or_ge 3 columns.length with enough | few
    · match columns, enough with
      | first :: second :: third :: fourth :: rest, _ =>
          obtain ⟨rfl, rfl, rfl, rfl, -⟩ : first = observer ∧ second = observed ∧ third = start ∧
              fourth = stop ∧ rest ++ List.replicate count [] = others := by simpa using shape
          exact ⟨_, _, _, _, rest, rfl, observerRead, observedRead, startRead, stopRead⟩
    · -- The last step would be read off a blank column.
      have found : (columns ++ List.replicate count [])[3]? = some stop := by rw [shape]; rfl
      rw [List.getElem?_append_right few] at found
      rw [List.eq_of_mem_replicate (List.mem_of_getElem? found)] at stopRead
      cases stopRead
  · rintro ⟨observer, observed, start, stop, others, rfl, read⟩
    exact ⟨observer, observed, start, stop, others ++ List.replicate count [], rfl, read⟩

/-- A line is read as the contact that its columns say from the first one on that is not blank. -/
theorem readLine_trim_eq_ok_iff {line : List Char}
    (loud : Text.isSilent (Text.trim line) = false) {contact : Contact} :
    readLine (Text.trim line) = .ok contact ↔
      contact.ReadOff (Text.unindentedFields line) ∧ contact.Sensible := by
  have visible : Text.trim line ≠ [] := by
    intro nothing
    rw [nothing] at loud
    cases loud
  obtain ⟨count, columns⟩ := Text.exists_fields_trim visible
  rw [readLine_eq_ok_iff, columns, readOff_append_blank_iff]

/-! ## Whole traces -/

/-- A text is read by the places of its columns. -/
structure Positional (text : String) : Prop where
  told : ∀ contacts, readTrace text = .ok contacts →
    List.Forall₂ (fun line contact => contact.ReadOff (Text.fields line))
      (Text.loudLines text.toList) contacts
  refused : ∀ earlier line later, Text.lines text.toList = earlier ++ line :: later →
    (∀ other ∈ earlier, Readable other) → Text.isSilent (Text.trim line) = false →
    (Text.fields line)[0]? = some [] ∨ (Text.fields line)[1]? = some [] →
    ∃ cause, readTrace text = .error (.format (1 + earlier.length) (.contact cause))

/-- The first column of a line is blank, and those behind the blank ones say a contact. -/
structure Shifted (line : List Char) : Prop where
  loud : Text.isSilent (Text.trim line) = false
  indented : (Text.fields line)[0]? = some []
  told : ∃ contact : Contact, contact.ReadOff (Text.unindentedFields line) ∧ contact.Sensible

theorem readOff_fields {line : List Char} (loud : Text.isSilent (Text.trim line) = false)
    (placed : ¬Shifted line) {contact : Contact}
    (read : readLine (Text.trim line) = .ok contact) : contact.ReadOff (Text.fields line) := by
  obtain ⟨told, sensible⟩ := (readLine_trim_eq_ok_iff loud).mp read
  have visible : (Text.fields line)[0]? ≠ some [] :=
    fun indented => placed ⟨loud, indented, contact, told, sensible⟩
  rwa [Text.unindentedFields_eq_fields visible] at told

theorem readable_of_readTrace {text : String} {contacts : List Contact}
    (read : readTrace text = .ok contacts) {line : List Char}
    (member : line ∈ Text.lines text.toList) : Readable line := by
  cases silent : Text.isSilent (Text.trim line) with
  | true => exact Or.inl silent
  | false =>
      have loudMember : line ∈ Text.loudLines text.toList :=
        List.mem_filter.mpr ⟨member, by simp [silent]⟩
      obtain ⟨contact, -, lineRead⟩ :=
        exists_of_mem_results (List.Forall₂.flip (readTrace_eq_ok_iff.mp read)) loudMember
      exact Or.inr ⟨contact, lineRead⟩

theorem positional_of_not_shifted {text : String}
    (placed : ∀ earlier line later, Text.lines text.toList = earlier ++ line :: later →
      (∀ other ∈ earlier, Readable other) → ¬Shifted line) : Positional text where
  told contacts read := by
    have each : ∀ line ∈ Text.loudLines text.toList,
        Text.isSilent (Text.trim line) = false ∧ ¬Shifted line := by
      intro line member
      obtain ⟨listed, loud⟩ := List.mem_filter.mp member
      obtain ⟨earlier, later, shape⟩ := List.append_of_mem listed
      refine ⟨by simpa using loud, placed earlier line later shape fun other before => ?_⟩
      exact readable_of_readTrace read (by rw [shape]; exact List.mem_append_left _ before)
    have together := (List.forall₂_and_left _ _).mpr ⟨each, readTrace_eq_ok_iff.mp read⟩
    exact together.imp fun line contact ⟨⟨loud, linePlaced⟩, lineRead⟩ =>
      readOff_fields loud linePlaced lineRead
  refused earlier line later shape readable loud blank := by
    have linePlaced := placed earlier line later shape readable
    cases read : readLine (Text.trim line) with
    | error cause =>
        refine ⟨cause, readTrace_eq_error_iff.mpr ⟨earlier.length, cause, ?_, rfl⟩⟩
        rw [shape]
        exact (stopsAt_append_iff readable).mpr ⟨loud, read⟩
    | ok contact =>
        have named := (readOff_fields loud linePlaced read).readName_eq
        rcases blank with first | second
        · exact absurd first named.1
        · exact absurd second named.2

theorem Positional.not_shifted {text : String} (positional : Positional text)
    {earlier later : List (List Char)} {line : List Char}
    (shape : Text.lines text.toList = earlier ++ line :: later)
    (readable : ∀ other ∈ earlier, Readable other) : ¬Shifted line := by
  rintro ⟨loud, indented, contact, told⟩
  obtain ⟨cause, refused⟩ :=
    positional.refused earlier line later shape readable loud (Or.inl indented)
  obtain ⟨place, other, stops, same⟩ := readTrace_eq_error_iff.mp refused
  obtain rfl : earlier.length = place := Nat.add_left_cancel (Error.format.inj same).1
  rw [shape] at stops
  obtain ⟨-, unreadable⟩ := (stopsAt_append_iff readable).mp stops
  cases unreadable.symm.trans ((readLine_trim_eq_ok_iff loud).mpr told)

/-- The contacts of a trace are read off the columns of its lines from the first one on that is not
blank; so a trace is read by the places of its columns exactly if no line that reading gets to is
shifted. -/
theorem columns_positional_iff (text : String) :
    (∀ contacts, readTrace text = .ok contacts →
      List.Forall₂ (fun line contact => contact.ReadOff (Text.unindentedFields line))
        (Text.loudLines text.toList) contacts) ∧
    (Positional text ↔ ∀ earlier line later, Text.lines text.toList = earlier ++ line :: later →
      (∀ other ∈ earlier, Readable other) → ¬Shifted line) := by
  refine ⟨fun contacts read => ?_, fun positional earlier line later => positional.not_shifted,
    positional_of_not_shifted⟩
  have loud : ∀ line ∈ Text.loudLines text.toList, Text.isSilent (Text.trim line) = false :=
    fun line member => by simpa using (List.mem_filter.mp member).2
  have together := (List.forall₂_and_left _ _).mpr ⟨loud, readTrace_eq_ok_iff.mp read⟩
  exact together.imp fun line contact ⟨lineLoud, lineRead⟩ =>
    ((readLine_trim_eq_ok_iff lineLoud).mp lineRead).1

/-- A contact is read off the columns behind a blank one, whereas the first four say none. -/
theorem exists_not_positional :
    readTrace "\ta\tb\t1\t2\n" = .ok [⟨.text "a", .text "b", 1, 2⟩] ∧
      (Text.lines "\ta\tb\t1\t2\n".toList).map Text.fields =
        [[[], ['a'], ['b'], ['1'], ['2']]] ∧
      ¬Positional "\ta\tb\t1\t2\n" := by
  have read : readTrace "\ta\tb\t1\t2\n" = .ok [⟨.text "a", .text "b", 1, 2⟩] := by
    decide +kernel
  refine ⟨read, by decide +kernel, fun positional => ?_⟩
  obtain ⟨cause, refused⟩ := positional.refused [] "\ta\tb\t1\t2".toList []
    (by decide +kernel) (fun other member => nomatch member) (by decide +kernel)
    (Or.inl (by decide +kernel))
  cases read.symm.trans refused

end Contact

end ContactReplay
