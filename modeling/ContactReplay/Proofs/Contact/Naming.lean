import ContactReplay.Proofs.Contact.Lines
import ContactReplay.Proofs.GraphStream.Reading

/-!
# The names of a contact trace

A trace is cut into lines and a line into trimmed columns, so every name of a trace has a firm
label, although blanks may stand within a name.  The two nodes of a contact have different names.
-/

namespace ContactReplay

namespace Text

/-! ## Pieces of texts -/

theorem mem_of_mem_splitAt {separates : Char → Bool} {text piece : List Char}
    (member : piece ∈ splitAt separates text) {character : Char} (inside : character ∈ piece) :
    character ∈ text := by
  induction text generalizing piece with
  | nil =>
      obtain rfl := List.mem_singleton.mp member
      cases inside
  | cons head tail inductionHypothesis =>
      rw [splitAt] at member
      split at member
      · rcases List.mem_cons.mp member with rfl | later
        · cases inside
        · exact List.mem_cons_of_mem _ (inductionHypothesis later inside)
      · obtain ⟨first, others, shape⟩ :=
          List.exists_cons_of_ne_nil (splitAt_ne_nil separates tail)
        rw [shape] at member inductionHypothesis
        rcases List.mem_cons.mp member with rfl | later
        · rcases List.mem_cons.mp inside with rfl | inFirst
          · exact List.mem_cons_self
          · exact List.mem_cons_of_mem _ (inductionHypothesis List.mem_cons_self inFirst)
        · exact List.mem_cons_of_mem _
            (inductionHypothesis (List.mem_cons_of_mem _ later) inside)

theorem not_mem_of_mem_lines {text line : List Char} (member : line ∈ lines text) :
    '\n' ∉ line := by
  induction text using lines.induct generalizing line with
  | case1 => cases member
  | case2 rest inductionHypothesis =>
      rw [lines] at member
      rcases List.mem_cons.mp member with rfl | later
      · exact List.not_mem_nil
      · exact inductionHypothesis later
  | case3 rest inductionHypothesis =>
      rw [lines] at member
      rcases List.mem_cons.mp member with rfl | later
      · exact List.not_mem_nil
      · exact inductionHypothesis later
  | case4 character rest noReturn noFeed inductionHypothesis =>
      rw [lines] at member
      · cases shape : lines rest with
        | nil =>
            rw [shape] at member
            obtain rfl := List.mem_singleton.mp member
            simpa using Ne.symm noFeed
        | cons first others =>
            rw [shape] at member inductionHypothesis
            rcases List.mem_cons.mp member with rfl | later
            · have clear := inductionHypothesis List.mem_cons_self
              simpa using ⟨Ne.symm noFeed, clear⟩
            · exact inductionHypothesis (List.mem_cons_of_mem _ later)
      · exact noReturn
      · exact noFeed

theorem mem_of_mem_trim {text : List Char} {character : Char} (member : character ∈ trim text) :
    character ∈ text := by
  rw [trim, trimEnd, List.mem_reverse] at member
  have started := (List.dropWhile_sublist _).subset member
  rw [List.mem_reverse] at started
  exact (List.dropWhile_sublist _).subset started

/-- What is left of a line after trimming is firm, unless nothing is left. -/
theorem firm_trim {text : List Char} (unbroken : '\n' ∉ text) (nonempty : trim text ≠ []) :
    Firm (trim text) where
  first := by
    obtain ⟨first, rest, shape⟩ := List.exists_cons_of_ne_nil nonempty
    have startsWith : first :: rest <+: trimStart text := by
      rw [← shape, trim, trimEnd, ← List.reverse_suffix, List.reverse_reverse]
      exact List.dropWhile_suffix _
    obtain ⟨others, whole⟩ := startsWith
    rw [shape]
    exact ⟨first, rfl, head_trimStart_not_blank whole.symm⟩
  last := by
    rw [trim, trimEnd, ne_eq, List.reverse_eq_nil_iff] at nonempty
    obtain ⟨last, rest, shape⟩ := List.exists_cons_of_ne_nil nonempty
    rw [trim, trimEnd, List.getLast?_reverse, shape]
    exact ⟨last, rfl, head_trimStart_not_blank shape⟩
  unbroken feed := unbroken (mem_of_mem_trim feed)

theorem firm_of_mem_fields {line column : List Char} (unbroken : '\n' ∉ line)
    (member : column ∈ fields line) (nonempty : column ≠ []) : Firm column := by
  obtain ⟨piece, pieceMember, rfl⟩ := List.mem_map.mp member
  exact firm_trim (fun feed => unbroken (mem_of_mem_splitAt pieceMember feed)) nonempty

end Text

/-! ## Labels -/

namespace NodeName

theorem toList_label_number (value : UInt64) :
    (NodeName.number value).label.toList = 'n' :: Nat.toDigits 10 value.toNat := by
  have digits : (toString value).toList = Nat.toDigits 10 value.toNat := Nat.toList_repr
  have letter : "n".toList = ['n'] := rfl
  simp only [label, GraphStream.toString_string, String.toList_append, letter, digits]
  rfl

theorem isToken_label_number (value : UInt64) :
    Text.isToken (NodeName.number value).label.toList = true := by
  have digits := (Text.isToken_iff.mp (Text.isToken_toDigits value.toNat)).2
  rw [toList_label_number, Text.isToken_iff]
  exact ⟨List.cons_ne_nil _ _, List.forall_mem_cons.mpr ⟨by decide, digits⟩⟩

theorem firm_label_ofText {raw : String} (firm : Text.Firm raw.toList) :
    Text.Firm (ofText raw).label.toList := by
  rw [ofText]
  split
  · exact Text.Firm.of_isToken (isToken_label_number _)
  · exact firm

theorem label_number_injective {first second : UInt64}
    (same : (NodeName.number first).label = (NodeName.number second).label) : first = second := by
  have texts := congrArg String.toList same
  rw [toList_label_number, toList_label_number] at texts
  have values := congrArg (fun text => Nat.ofDigitChars 10 text 0) (List.cons.inj texts).2
  exact UInt64.toNat_inj.mp (by simpa only [Nat.ofDigitChars_ten_toDigits] using values)

end NodeName

/-! ## Traces -/

namespace Contact

/-- A contact of two different names with firm labels. -/
structure Named (contact : Contact) : Prop where
  different : contact.observer ≠ contact.observed
  observer : Text.Firm contact.observer.label.toList
  observed : Text.Firm contact.observed.label.toList

theorem firm_of_readName {line column : List Char} (unbroken : '\n' ∉ line)
    (member : column ∈ Text.fields line) {name : NodeName} (read : readName column = .ok name) :
    Text.Firm name.label.toList := by
  rw [readName] at read
  split at read
  · cases read
  · rename_i nonempty
    obtain rfl := Except.ok.inj read
    apply NodeName.firm_label_ofText
    rw [String.toList_ofList]
    exact Text.firm_of_mem_fields unbroken member (by simpa using nonempty)

theorem named_of_readLine {line : List Char} (unbroken : '\n' ∉ line) {contact : Contact}
    (read : readLine line = .ok contact) : contact.Named := by
  obtain ⟨⟨observer, observed, start, stop, others, columns, observerRead, observedRead, -⟩,
    sensible⟩ := readLine_eq_ok_iff.mp read
  exact ⟨sensible.different, firm_of_readName unbroken (by simp [columns]) observerRead,
    firm_of_readName unbroken (by simp [columns]) observedRead⟩

theorem named_of_readTrace {text : String} {contacts : List Contact}
    (read : readTrace text = .ok contacts) : ∀ contact ∈ contacts, contact.Named := by
  intro contact member
  obtain ⟨line, lineMember, lineRead⟩ := exists_line_of_readTrace read member
  exact named_of_readLine
    (fun feed => Text.not_mem_of_mem_lines lineMember (Text.mem_of_mem_trim feed)) lineRead

end Contact

end ContactReplay
