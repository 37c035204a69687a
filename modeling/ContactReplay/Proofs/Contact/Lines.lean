import ContactReplay.Contact.Trace
import ContactReplay.Proofs.Text.Sentence
import Mathlib.Data.List.Forall2

/-!
# The lines of a contact trace

A trace is read line by line.  Its loud lines are those that are neither blank nor comments:

* `readLine_eq_ok_iff` says when a line is read, and as which contact;
* the contacts of a trace are those of its loud lines, in order (`readTrace_eq_ok_iff`);
* a trace is refused at the first loud line that cannot be read (`readTrace_eq_error_iff`).
-/

namespace ContactReplay

namespace Text

/-- The lines of a text that are neither blank nor comments, as they stand there. -/
def loudLines (text : List Char) : List (List Char) :=
  (lines text).filter fun line => !isSilent (trim line)

theorem map_text_spoken (number : Nat) (texts : List (List Char)) :
    (spoken number texts).map (·.text) = texts.filter fun text => !isSilent text := by
  induction texts generalizing number with
  | nil => rfl
  | cons text rest inductionHypothesis =>
      cases silent : isSilent text with
      | true =>
          rw [spoken_cons_of_silent silent, inductionHypothesis,
            List.filter_cons_of_neg (by simp [silent])]
      | false =>
          rw [spoken_cons_of_loud silent, List.map_cons, inductionHypothesis,
            List.filter_cons_of_pos (by simp [silent])]

theorem map_text_spokenLines (text : List Char) :
    (spokenLines text).map (·.text) = (loudLines text).map trim := by
  rw [spokenLines_eq_spoken, map_text_spoken, List.filter_map]
  rfl

end Text

namespace Contact

/-! ## Sequences of readings -/

section Sequences

variable {α β ε : Type}

variable {read : α → Except ε β}

/-- A traversal that succeeds has made its results from the elements, one from each. -/
theorem mapM_eq_ok_iff {items : List α} {results : List β} :
    items.mapM read = .ok results ↔
      List.Forall₂ (fun item result => read item = .ok result) items results := by
  induction items generalizing results with
  | nil =>
      rw [List.mapM_nil, List.forall₂_nil_left_iff]
      exact ⟨fun done => (Except.ok.inj done).symm, fun nothing => congrArg Except.ok nothing.symm⟩
  | cons item rest inductionHypothesis =>
      rw [List.mapM_cons, bind_eq_ok_iff, List.forall₂_cons_left_iff]
      constructor
      · rintro ⟨first, itemRead, done⟩
        obtain ⟨others, restRead, same⟩ := bind_eq_ok_iff.mp done
        exact ⟨first, others, itemRead, inductionHypothesis.mp restRead, (Except.ok.inj same).symm⟩
      · rintro ⟨first, others, itemRead, restRead, rfl⟩
        exact ⟨first, itemRead,
          bind_eq_ok_iff.mpr ⟨others, inductionHypothesis.mpr restRead, rfl⟩⟩

theorem exists_of_mem_results {relation : α → β → Prop} {items : List α} {results : List β}
    (related : List.Forall₂ relation items results) {result : β} (member : result ∈ results) :
    ∃ item ∈ items, relation item result := by
  induction related with
  | nil => cases member
  | cons relates _ inductionHypothesis =>
      rcases List.mem_cons.mp member with rfl | later
      · exact ⟨_, List.mem_cons_self, relates⟩
      · obtain ⟨item, itemMember, itemRelates⟩ := inductionHypothesis later
        exact ⟨item, List.mem_cons_of_mem _ itemMember, itemRelates⟩

theorem mapM_cons_of_error {item : α} {cause : ε} (failed : read item = .error cause)
    (rest : List α) : (item :: rest).mapM read = .error cause := by
  rw [List.mapM_cons, failed]
  rfl

theorem mapM_cons_eq_error_iff {item : α} {result : β} (done : read item = .ok result)
    {rest : List α} {cause : ε} :
    (item :: rest).mapM read = .error cause ↔ rest.mapM read = .error cause := by
  rw [List.mapM_cons, done]
  cases rest.mapM read with
  | error other => exact Iff.rfl
  | ok others => exact iff_of_false nofun nofun

end Sequences

/-! ## Single lines -/

/-- A contact is what the first four of some columns say. -/
def ReadOff (contact : Contact) (columns : List (List Char)) : Prop :=
  ∃ observer observed start stop others,
    columns = observer :: observed :: start :: stop :: others ∧
      readName observer = .ok contact.observer ∧ readName observed = .ok contact.observed ∧
      Text.numeral? start = some contact.start ∧ Text.numeral? stop = some contact.stop

/-- A contact that a trace can tell of: two different nodes, and an end that is not before the
start. -/
structure Sensible (contact : Contact) : Prop where
  different : contact.observer ≠ contact.observed
  forward : contact.start ≤ contact.stop

/-- A line is read as the contact that its columns say, if that is sensible. -/
theorem readLine_eq_ok_iff {line : List Char} {contact : Contact} :
    readLine line = .ok contact ↔ contact.ReadOff (Text.fields line) ∧ contact.Sensible := by
  rw [readLine]
  split
  · rename_i observerColumn observedColumn startColumn stopColumn others columns
    constructor
    · intro read
      obtain ⟨observer, observerRead, read⟩ := bind_eq_ok_iff.mp read
      obtain ⟨observed, observedRead, read⟩ := bind_eq_ok_iff.mp read
      split at read
      · rename_i start startRead
        split at read
        · rename_i stop stopRead
          simp only [bind, Except.bind] at read
          split at read
          · cases read
          · rename_i different
            split at read
            · cases read
            · rename_i forward
              obtain rfl := Except.ok.inj read
              exact ⟨⟨_, _, _, _, others, columns, observerRead, observedRead, startRead,
                stopRead⟩, different, UInt64.not_lt.mp forward⟩
        · cases read
      · cases read
    · rintro ⟨⟨_, _, _, _, _, same, observerRead, observedRead, startRead, stopRead⟩, different,
        forward⟩
      rw [columns] at same
      cases same
      rw [observerRead, observedRead, startRead, stopRead]
      simp [bind, Except.bind, different, UInt64.not_lt.mpr forward, pure, Except.pure]
  · rename_i few
    constructor
    · intro read
      cases read
    · rintro ⟨⟨observer, observed, start, stop, others, columns, -⟩, -⟩
      exact absurd columns (few observer observed start stop others)

/-! ## Whole traces -/

/-- What a numbered line says. -/
def readNumbered (line : Text.Line) : Except Error Contact :=
  (readLine line.text).mapError fun cause => .format line.number (.contact cause)

theorem readNumbered_eq_ok_iff {line : Text.Line} {contact : Contact} :
    readNumbered line = .ok contact ↔ readLine line.text = .ok contact := by
  rw [readNumbered]
  cases readLine line.text <;> simp [Except.mapError]

theorem readTrace_eq_mapM (text : String) :
    readTrace text = (Text.spokenLines text.toList).mapM readNumbered := rfl

/-- The contacts of a trace are those of its loud lines, in order. -/
theorem readTrace_eq_ok_iff {text : String} {contacts : List Contact} :
    readTrace text = .ok contacts ↔
      List.Forall₂ (fun line contact => readLine (Text.trim line) = .ok contact)
        (Text.loudLines text.toList) contacts := by
  have trimmed : List.Forall₂ (fun line contact => readLine line = .ok contact)
      ((Text.spokenLines text.toList).map (·.text)) contacts ↔
        List.Forall₂ (fun line contact => readLine line = .ok contact)
          ((Text.loudLines text.toList).map Text.trim) contacts := by
    rw [Text.map_text_spokenLines]
  rw [List.forall₂_map_left_iff, List.forall₂_map_left_iff] at trimmed
  rw [readTrace_eq_mapM, mapM_eq_ok_iff, ← trimmed]
  simp only [readNumbered_eq_ok_iff]

theorem exists_line_of_readTrace {text : String} {contacts : List Contact}
    (read : readTrace text = .ok contacts) {contact : Contact} (member : contact ∈ contacts) :
    ∃ line ∈ Text.lines text.toList, readLine (Text.trim line) = .ok contact := by
  obtain ⟨line, lineMember, lineRead⟩ := exists_of_mem_results (readTrace_eq_ok_iff.mp read) member
  exact ⟨line, (List.mem_filter.mp lineMember).1, lineRead⟩

/-- A line does not keep a trace from being read: it is silent, or it is read as a contact. -/
def Readable (line : List Char) : Prop :=
  Text.isSilent (Text.trim line) = true ∨ ∃ contact, readLine (Text.trim line) = .ok contact

/-- Some lines are readable, as many as the place says, and the next one is not. -/
inductive StopsAt : List (List Char) → Nat → ContactFormatError → Prop where
  | here {line : List Char} {cause : ContactFormatError} (rest : List (List Char))
      (loud : Text.isSilent (Text.trim line) = false)
      (unreadable : readLine (Text.trim line) = .error cause) : StopsAt (line :: rest) 0 cause
  | later {line : List Char} {rest : List (List Char)} {place : Nat} {cause : ContactFormatError}
      (readable : Readable line) (stops : StopsAt rest place cause) :
      StopsAt (line :: rest) (place + 1) cause

theorem not_readable {line : List Char} {cause : ContactFormatError}
    (loud : Text.isSilent (Text.trim line) = false)
    (unreadable : readLine (Text.trim line) = .error cause) : ¬Readable line := by
  rintro (silent | ⟨contact, read⟩)
  · exact Bool.false_ne_true (loud.symm.trans silent)
  · cases unreadable.symm.trans read

/-- Behind lines that are readable, reading stops at the next one exactly if it is not. -/
theorem stopsAt_append_iff {earlier : List (List Char)} (readable : ∀ line ∈ earlier, Readable line)
    {line : List Char} {later : List (List Char)} {cause : ContactFormatError} :
    StopsAt (earlier ++ line :: later) earlier.length cause ↔
      Text.isSilent (Text.trim line) = false ∧ readLine (Text.trim line) = .error cause := by
  induction earlier with
  | nil =>
      constructor
      · rintro ⟨⟩
        exact ⟨‹_›, ‹_›⟩
      · exact fun ⟨loud, unreadable⟩ => .here later loud unreadable
  | cons first others inductionHypothesis =>
      obtain ⟨firstReadable, othersReadable⟩ := List.forall_mem_cons.mp readable
      rw [← inductionHypothesis othersReadable]
      constructor
      · intro stops
        cases stops with
        | later _ stops => exact stops
      · exact .later firstReadable

theorem exists_stopsAt_cons_iff {line : List Char} (readable : Readable line)
    {rest : List (List Char)} {number : Nat} {error : Error} :
    (∃ place cause, StopsAt (line :: rest) place cause ∧
      error = .format (number + place) (.contact cause)) ↔
    ∃ place cause, StopsAt rest place cause ∧
      error = .format (number + 1 + place) (.contact cause) := by
  constructor
  · rintro ⟨place, cause, stops, rfl⟩
    cases stops with
    | here _ loud unreadable => exact absurd readable (not_readable loud unreadable)
    | later _ stops => exact ⟨_, cause, stops, by rw [Nat.add_right_comm, Nat.add_assoc]⟩
  · rintro ⟨place, cause, stops, rfl⟩
    exact ⟨place + 1, cause, .later readable stops, by rw [Nat.add_right_comm, Nat.add_assoc]⟩

theorem mapM_spoken_eq_error_iff {number : Nat} {pieces : List (List Char)} {error : Error} :
    (Text.spoken number (pieces.map Text.trim)).mapM readNumbered = .error error ↔
      ∃ place cause, StopsAt pieces place cause ∧
        error = .format (number + place) (.contact cause) := by
  induction pieces generalizing number with
  | nil =>
      refine iff_of_false nofun ?_
      rintro ⟨place, cause, stops, -⟩
      cases stops
  | cons piece rest inductionHypothesis =>
      rw [List.map_cons]
      cases silent : Text.isSilent (Text.trim piece) with
      | true =>
          rw [Text.spoken_cons_of_silent silent, inductionHypothesis,
            exists_stopsAt_cons_iff (Or.inl silent)]
      | false =>
          rw [Text.spoken_cons_of_loud silent]
          cases read : readLine (Text.trim piece) with
          | ok contact =>
              have numbered : readNumbered ⟨number, Text.trim piece⟩ = .ok contact :=
                readNumbered_eq_ok_iff.mpr read
              rw [mapM_cons_eq_error_iff numbered, inductionHypothesis,
                exists_stopsAt_cons_iff (Or.inr ⟨contact, read⟩)]
          | error cause =>
              have numbered : readNumbered ⟨number, Text.trim piece⟩ =
                  .error (.format number (.contact cause)) := by
                rw [readNumbered, read]
                rfl
              rw [mapM_cons_of_error numbered]
              constructor
              · intro same
                exact ⟨0, cause, .here rest silent read, (Except.error.inj same).symm⟩
              · rintro ⟨place, other, stops, rfl⟩
                cases stops with
                | here _ _ unreadable =>
                    cases read.symm.trans unreadable
                    rfl
                | later readable _ => exact absurd readable (not_readable silent read)

/-- A trace is refused at the first line that is not readable. -/
theorem readTrace_eq_error_iff {text : String} {error : Error} :
    readTrace text = .error error ↔ ∃ place cause, StopsAt (Text.lines text.toList) place cause ∧
      error = .format (1 + place) (.contact cause) := by
  rw [readTrace_eq_mapM, Text.spokenLines_eq_spoken, mapM_spoken_eq_error_iff]

end Contact

end ContactReplay
