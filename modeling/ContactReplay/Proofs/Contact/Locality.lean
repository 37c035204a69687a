import ContactReplay.Proofs.Contact.Naming
import ContactReplay.Proofs.GraphStream.Layout

/-!
# Traces that are put together

A text that is continued after a line end is read part by part: its contacts are those of the first
part followed by those of the second one, and the first error decides, under the number that its
line has in the whole text (`readTrace_append`).  Within a part, the contacts are those of the loud
lines, one for each, and the layout of a text does not matter but for the numbers of its lines
(`ReadByLine`).
-/

namespace ContactReplay

namespace Text

/-- A text whose last line has its end has as many lines as line feeds. -/
theorem Complete.length_lines {text : List Char} (complete : Complete text) :
    (lines text).length = text.count '\n' := by
  fun_induction lines text with
  | case1 => rfl
  | case2 rest inductionHypothesis =>
      rw [List.length_cons, inductionHypothesis complete.of_cons.of_cons]
      simp
  | case3 rest inductionHypothesis =>
      rw [List.length_cons, inductionHypothesis complete.of_cons]
      simp
  | case4 character rest notReturn notFeed inductionHypothesis =>
      cases rest with
      | nil =>
          rcases complete with impossible | ends
          · cases impossible
          · exact absurd (Option.some.inj ends) notFeed
      | cons next others =>
          obtain ⟨piece, pieces, shape⟩ := List.exists_cons_of_ne_nil
            (mt lines_eq_nil_iff.mp (List.cons_ne_nil next others))
          have others := inductionHypothesis complete.of_cons
          rw [shape] at others ⊢
          rw [List.count_cons_of_ne notFeed, ← others]
          rfl

theorem spoken_add (number more : Nat) (texts : List (List Char)) :
    spoken (number + more) texts = (spoken number texts).map (Line.renumber (· + more)) := by
  induction texts generalizing number with
  | nil => rfl
  | cons text rest inductionHypothesis =>
      have later := inductionHypothesis (number + 1)
      rw [Nat.add_right_comm] at later
      cases silent : isSilent text with
      | true => rw [spoken_cons_of_silent silent, spoken_cons_of_silent silent, later]
      | false =>
          rw [spoken_cons_of_loud silent, spoken_cons_of_loud silent, later, List.map_cons]
          rfl

/-- What a text says that is continued after a line end. -/
theorem spokenLines_append {first : List Char} (complete : Complete first) (second : List Char) :
    spokenLines (first ++ second) = spokenLines first ++
      (spokenLines second).map (Line.renumber (· + first.count '\n')) := by
  rw [spokenLines_eq_spoken, lines_append complete, List.map_append, spoken_append,
    List.length_map, complete.length_lines, spoken_add, ← spokenLines_eq_spoken,
    ← spokenLines_eq_spoken]

end Text

namespace Contact

/-! ## Renumbered lines -/

theorem readNumbered_renumber (place : Nat → Nat) (line : Text.Line) :
    readNumbered (line.renumber place) = (readNumbered line).mapError (Error.renumber place) := by
  rw [readNumbered, readNumbered, Text.Line.text_renumber]
  cases readLine line.text <;> rfl

theorem mapM_renumber (place : Nat → Nat) (lines : List Text.Line) :
    (lines.map (Text.Line.renumber place)).mapM readNumbered =
      (lines.mapM readNumbered).mapError (Error.renumber place) := by
  induction lines with
  | nil => rfl
  | cons line rest inductionHypothesis =>
      rw [List.map_cons, List.mapM_cons, List.mapM_cons, readNumbered_renumber,
        inductionHypothesis]
      cases readNumbered line with
      | error cause => rfl
      | ok contact => cases rest.mapM readNumbered <;> rfl

/-- A text that is continued after a line end is read part by part. -/
theorem readTrace_append {first : String} (complete : Text.Complete first.toList)
    (second : String) :
    readTrace (first ++ second) = (do
      let contacts ← readTrace first
      let others ← (readTrace second).mapError (Error.renumber (· + first.toList.count '\n'))
      return contacts ++ others) := by
  rw [readTrace_eq_mapM, String.toList_append, Text.spokenLines_append complete, List.mapM_append,
    mapM_renumber]
  rfl

/-! ## Reading part by part and line by line -/

/-- The parts of a text are read on their own. -/
structure ReadApart (first second : String) : Prop where
  accepted : ∀ contacts others, readTrace first = .ok contacts → readTrace second = .ok others →
    readTrace (first ++ second) = .ok (contacts ++ others)
  firstRefused : ∀ error, readTrace first = .error error →
    readTrace (first ++ second) = .error error
  secondRefused : ∀ contacts line cause, readTrace first = .ok contacts →
    readTrace second = .error (.format line cause) →
    readTrace (first ++ second) = .error (.format (line + first.toList.count '\n') cause)

/-- A text is read line by line. -/
structure ReadByLine (text : String) : Prop where
  /-- Every loud line gives one contact, and there are no others. -/
  contacts : ∀ contacts, readTrace text = .ok contacts →
    List.Forall₂ (fun line contact => readLine (Text.trim line) = .ok contact)
      (Text.loudLines text.toList) contacts
  sound : ∀ contacts, readTrace text = .ok contacts → ∀ contact ∈ contacts,
    contact.observer ≠ contact.observed ∧ contact.observer.label ≠ "" ∧
      contact.observed.label ≠ "" ∧ contact.start ≤ contact.stop
  refused : ∀ error, readTrace text = .error error →
    ∃ line cause, error = .format line (.contact cause)
  /-- Blank lines and comments give the other lines their places and do nothing else. -/
  relaid : ∀ other changes, Text.lines text.toList = changes.filterMap LayoutChange.old? →
    Text.lines other.toList = changes.filterMap LayoutChange.new? →
    readTrace other = (readTrace text).mapError (.renumber (LayoutChange.newPlace changes)) ∧
    ∀ earlier line old new later, changes = earlier ++ .respace line old new :: later →
      LayoutChange.newPlace changes ((earlier.filterMap LayoutChange.old?).length + 1) =
        (earlier.filterMap LayoutChange.new?).length + 1

theorem readTrace_of_layoutChanges {text other : String} {changes : List LayoutChange}
    (before : Text.lines text.toList = changes.filterMap LayoutChange.old?)
    (after : Text.lines other.toList = changes.filterMap LayoutChange.new?) :
    readTrace other =
      (readTrace text).mapError (.renumber (LayoutChange.newPlace changes)) := by
  have renumbered : Text.spokenLines other.toList =
      (Text.spokenLines text.toList).map (Text.Line.renumber (LayoutChange.newPlace changes)) := by
    rw [Text.spokenLines_eq_spoken, Text.spokenLines_eq_spoken, before, after]
    exact LayoutChange.spoken_new 0 0 fun ahead => by rw [Nat.zero_add, Nat.zero_add]
  rw [readTrace_eq_mapM, renumbered, mapM_renumber, ← readTrace_eq_mapM]

theorem Named.label_ne_empty {contact : Contact} (named : contact.Named) :
    contact.observer.label ≠ "" ∧ contact.observed.label ≠ "" := by
  constructor
  · intro empty
    exact named.observer.ne_nil (by rw [empty]; rfl)
  · intro empty
    exact named.observed.ne_nil (by rw [empty]; rfl)

theorem readByLine (text : String) : ReadByLine text where
  contacts _ read := readTrace_eq_ok_iff.mp read
  sound contacts read contact member := by
    have named := named_of_readTrace read contact member
    obtain ⟨line, -, lineRead⟩ := exists_line_of_readTrace read member
    have sensible := (readLine_eq_ok_iff.mp lineRead).2
    exact ⟨named.different, named.label_ne_empty.1, named.label_ne_empty.2, sensible.forward⟩
  refused error read := by
    obtain ⟨place, cause, -, same⟩ := readTrace_eq_error_iff.mp read
    exact ⟨1 + place, cause, same⟩
  relaid other changes before after := by
    refine ⟨readTrace_of_layoutChanges before after, ?_⟩
    rintro earlier line old new later rfl
    exact LayoutChange.newPlace_respace earlier line old new later

/-- A text that is continued after a line end is read part by part, and each part line by line. -/
theorem readTrace_lineLocal {first : String} (complete : Text.Complete first.toList)
    (second : String) :
    ReadApart first second ∧ ReadByLine second := by
  refine ⟨⟨?_, ?_, ?_⟩, readByLine second⟩
  · intro contacts others firstRead secondRead
    rw [readTrace_append complete, firstRead, secondRead]
    rfl
  · intro error firstRead
    rw [readTrace_append complete, firstRead]
    rfl
  · intro contacts line cause firstRead secondRead
    rw [readTrace_append complete, firstRead, secondRead]
    rfl

/-- The first part has two lines, and the third line of the second part cannot be read. -/
theorem readTrace_lineLocal_commented :
    Text.Complete "# trace\r\na\tb\t1\t2\n".toList ∧
    readTrace "# trace\r\na\tb\t1\t2\n" = .ok [⟨.text "a", .text "b", 1, 2⟩] ∧
    readTrace "\n#\nc\td\t5\t3" = .error (.format 3 (.contact (.reversed 5 3))) ∧
    readTrace ("# trace\r\na\tb\t1\t2\n" ++ "\n#\nc\td\t5\t3") =
      .error (.format 5 (.contact (.reversed 5 3))) := by
  have complete : Text.Complete "# trace\r\na\tb\t1\t2\n".toList := Or.inr (by decide)
  have firstRead : readTrace "# trace\r\na\tb\t1\t2\n" =
      .ok [⟨.text "a", .text "b", 1, 2⟩] := by decide +kernel
  have secondRead : readTrace "\n#\nc\td\t5\t3" =
      .error (.format 3 (.contact (.reversed 5 3))) := by decide +kernel
  exact ⟨complete, firstRead, secondRead,
    (readTrace_lineLocal complete _).1.secondRefused _ _ _ firstRead secondRead⟩

end Contact

end ContactReplay
