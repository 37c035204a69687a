import ContactReplay.Proofs.Contact.Naming
import ContactReplay.Proofs.GraphStream.Wording
import ContactReplay.Proofs.Pipeline.Alternation

/-!
# Traces that can be read back

A trace keeps the two nodes of a contact apart and trims their names, but it lets a name hold blanks
or be a direction, and the name of a graph may begin like a comment.  `exists_read_graphText_iff`
says that these are the only reasons why what is written of a trace cannot be read, and that a
document that can be read has the label of every node once.
-/

namespace ContactReplay

theorem Interval.absorb_ne_nil (stretches : List Interval) (next : Interval) :
    absorb stretches next ≠ [] := by
  cases stretches with
  | nil => exact List.cons_ne_nil _ _
  | cons latest earlier =>
      rw [absorb]
      split
      · exact List.cons_ne_nil _ _
      · split <;> exact List.cons_ne_nil _ _

theorem Interval.sweep_ne_nil {intervals : List Interval} (some : intervals ≠ []) :
    sweep intervals ≠ [] := by
  induction intervals using List.reverseRecOn with
  | nil => exact absurd rfl some
  | append_singleton init next _ =>
      rw [sweep_concat]
      exact absorb_ne_nil _ _

namespace Mark

theorem add_mem_outline (pair : Pair NodeName) (latest : Interval) (earlier : List Interval) :
    ⟨latest.start, .add, pair⟩ ∈ outline pair (latest :: earlier) := by
  rw [outline_cons]
  exact List.mem_append_right _ List.mem_cons_self

theorem add_mem_finale (pair : Pair NodeName) (latest : Interval) (earlier : List Interval) :
    ⟨latest.start, .add, pair⟩ ∈ finale pair (latest :: earlier) := by
  rw [finale]
  split
  · exact add_mem_outline pair latest earlier
  · exact List.mem_append_right _ List.mem_cons_self

end Mark

/-! ## Contacts and what a merger holds -/

namespace Merger.Closes

variable {merger : Merger} {contacts : List Contact}
  (closes : merger.Closes (Contact.early contacts) (Contact.late contacts))
include closes

theorem mem_keys_iff (name : NodeName) :
    name ∈ merger.timeline.nodes.keys ↔ name ∈ Contact.names contacts := by
  have taken : ∀ contact, contact ∈ Contact.early contacts ++ Contact.late contacts ↔
      contact ∈ contacts := fun contact => by
    rw [Contact.early_append_late, (Contact.inOrder_perm contacts).mem_iff]
  rw [Contact.mem_names, timeline, closes.nodes]
  simp only [taken]

theorem exists_contact {event : Event} (member : event ∈ merger.timeline.events) :
    ∃ contact ∈ contacts, contact.pair = event.pair := by
  obtain ⟨step, marked⟩ := Timeline.mem_events_iff.mp member
  rw [merger.marksOf_timeline] at marked
  by_cases known : ∃ contact ∈ Contact.late contacts, contact.pair = event.pair
  · obtain ⟨contact, isLate, same⟩ := known
    exact ⟨contact, (Contact.mem_late.mp isLate).1, same⟩
  · rw [closes.outlined event.pair fun contact isLate same => known ⟨contact, isLate, same⟩]
      at marked
    cases shape : Contact.spans merger.pad event.pair (Contact.early contacts) with
    | nil =>
        rw [shape] at marked
        cases marked
    | cons span others =>
        have spanMember : span ∈ Contact.spans merger.pad event.pair (Contact.early contacts) := by
          rw [shape]
          exact List.mem_cons_self
        obtain ⟨contact, isEarly, same, -⟩ := Contact.mem_spans.mp spanMember
        exact ⟨contact, (Contact.mem_early.mp isEarly).1, same⟩

theorem add_mem_events {contact : Contact} (member : contact ∈ contacts) :
    ⟨.add, contact.pair⟩ ∈ merger.timeline.events := by
  rw [Timeline.mem_events_iff, merger.marksOf_timeline]
  by_cases known : ∃ other ∈ Contact.late contacts, other.pair = contact.pair
  · obtain ⟨other, isLate, same⟩ := known
    obtain ⟨latest, earlier, stretches⟩ :=
      List.exists_cons_of_ne_nil (closes.connected other isLate)
    rw [← same, closes.finished other isLate, stretches]
    exact ⟨_, Mark.add_mem_finale _ _ _⟩
  · have isEarly : contact ∈ Contact.early contacts := by
      refine Contact.mem_early.mpr ⟨member, UInt64.lt_of_le_of_ne (le_lastStep _) fun atLast => ?_⟩
      exact known ⟨contact, Contact.mem_late.mpr ⟨member, atLast⟩, rfl⟩
    have spanMember : contact.span merger.pad ∈
        Contact.spans merger.pad contact.pair (Contact.early contacts) :=
      Contact.mem_spans.mpr ⟨contact, isEarly, rfl, rfl⟩
    obtain ⟨latest, earlier, stretches⟩ := List.exists_cons_of_ne_nil
      (Interval.sweep_ne_nil (List.ne_nil_of_mem spanMember))
    rw [closes.outlined contact.pair fun other isLate same => known ⟨other, isLate, same⟩,
      stretches]
    exact ⟨_, Mark.add_mem_outline _ _ _⟩

/-- There are no more steps than lines. -/
theorem stepCount_lt (linesFit : merger.timeline.lineCount < UInt64.size) :
    merger.timeline.stepCount < UInt64.size := by
  have moments : merger.timeline.moments.length ≤ merger.timeline.events.length :=
    length_le_of_occupied Mark.events_ne_nil_of_mem_moments
  rw [Timeline.lineCount, Timeline.eventCount_eq] at linesFit
  rw [Timeline.stepCount]
  cases events : merger.timeline.events with
  | nil =>
      rw [events, List.length_nil] at moments
      rw [Nat.le_zero.mp moments]
      decide
  | cons event rest =>
      have member : event ∈ merger.timeline.events := by
        rw [events]
        exact List.mem_cons_self
      obtain ⟨contact, contactMember, same⟩ := closes.exists_contact member
      have node := List.length_pos_of_mem
        ((closes.mem_keys_iff _).mpr (Contact.ends_mem_names contactMember).1)
      rw [Table.keys, List.length_map] at node
      rw [Table.size] at linesFit
      omega

end Merger.Closes

/-! ## Labels -/

namespace Timeline

/-- Labels that are not shared by a number and a text belong to one node each. -/
theorem label_injective_of_sharedLabel? {timeline : Timeline}
    (distinct : timeline.sharedLabel? = none) {first second : NodeName}
    (firstMember : first ∈ timeline.nodes.keys) (secondMember : second ∈ timeline.nodes.keys)
    (same : first.label = second.label) : first = second := by
  have apart : ∀ value text, NodeName.number value ∈ timeline.nodes.keys →
      NodeName.text text ∈ timeline.nodes.keys → (NodeName.number value).label ≠ text := by
    intro value text numberMember textMember shared
    rw [sharedLabel?, List.findSome?_eq_none_iff] at distinct
    have unshared := List.findSome?_eq_none_iff.mp (distinct _ textMember) _ numberMember
    dsimp only at unshared
    rw [if_pos shared] at unshared
    cases unshared
  cases first with
  | number value =>
      cases second with
      | number other => exact congrArg _ (NodeName.label_number_injective same)
      | text other => exact absurd same (apart value other firstMember secondMember)
  | text content =>
      cases second with
      | number other => exact absurd same.symm (apart other content secondMember firstMember)
      | text other => exact congrArg _ same

end Timeline

/-- A merger of named contacts gives a timeline between nodes with firm labels. -/
theorem Merger.Closes.populated {merger : Merger} {contacts : List Contact}
    (closes : merger.Closes (Contact.early contacts) (Contact.late contacts))
    (named : ∀ contact ∈ contacts, contact.Named)
    (distinct : merger.timeline.sharedLabel? = none) : merger.timeline.Populated where
  firm node member := by
    obtain ⟨contact, contactMember, rfl | rfl⟩ :=
      Contact.mem_names.mp ((closes.mem_keys_iff node).mp member)
    · exact (named contact contactMember).observer
    · exact (named contact contactMember).observed
  ends event member := by
    obtain ⟨contact, contactMember, same⟩ := closes.exists_contact member
    rw [closes.mem_keys_iff, closes.mem_keys_iff, ← same]
    exact Contact.ends_mem_names contactMember
  different event member := by
    obtain ⟨contact, contactMember, same⟩ := closes.exists_contact member
    obtain ⟨low, high⟩ := Contact.ends_mem_names contactMember
    rw [← closes.mem_keys_iff] at low high
    intro sameLabel
    rw [← same] at sameLabel
    exact Contact.low_ne_high (named contact contactMember).different
      (Timeline.label_injective_of_sharedLabel? distinct low high sameLabel)
  added node member := by
    obtain ⟨contact, contactMember, among⟩ :=
      Contact.mem_names.mp ((closes.mem_keys_iff node).mp member)
    refine ⟨contact.pair, closes.add_mem_events contactMember, ?_⟩
    rw [List.mem_pair]
    rcases Pair.of_eq_or contact.observer contact.observed with ⟨low, high⟩ | ⟨low, high⟩
    · exact among.imp (·.trans low.symm) (·.trans high.symm)
    · exact among.symm.imp (·.trans low.symm) (·.trans high.symm)

/-- What is written of a trace can be read exactly if every label is a token and no direction and
the name of the graph does not begin like a comment.  The nodes of the document are then the labels
of the nodes of the trace, each of them once.  The number of lines is a machine word, as the lengths
of all texts in memory are. -/
theorem exists_read_graphText_iff {trace : String} {contacts : List Contact} {pad : UInt64}
    {timeline : Timeline} {graphName text : String}
    (traceRead : Contact.readTrace trace = .ok contacts)
    (merged : Timeline.ofContacts contacts pad = .ok timeline)
    (written : timeline.graphText graphName = .ok text)
    (linesFit : timeline.lineCount < UInt64.size) :
    (∃ document, Document.read text = .ok document ∧ document.nodes.Nodup ∧
        document.nodes.Perm ((Contact.names contacts).dedup.map NodeName.label)) ↔
      graphName.toList.head? ≠ some '#' ∧
        ∀ name ∈ Contact.names contacts, Timeline.LegibleLabel name.label := by
  obtain ⟨merger, rfl, -, -, -, closes⟩ := closes_of_ofContacts merged
  obtain ⟨-, distinct, -⟩ := Timeline.exists_of_graphText written
  have populated := closes.populated (Contact.named_of_readTrace traceRead) distinct
  have ascending := Mark.moments_ascending closes.sorted
  have nodup : (merger.timeline.nodes.keys.map NodeName.label).Nodup :=
    List.Nodup.map_on (fun first firstMember second secondMember =>
      Timeline.label_injective_of_sharedLabel? distinct firstMember secondMember)
      merger.timeline.nodes.keys_nodup
  have perm : (merger.timeline.nodes.keys.map NodeName.label).Perm
      ((Contact.names contacts).dedup.map NodeName.label) := by
    refine List.Perm.map _ ((List.perm_ext_iff_of_nodup merger.timeline.nodes.keys_nodup
      (List.nodup_dedup _)).mpr fun name => ?_)
    rw [List.mem_dedup, closes.mem_keys_iff]
  have stepsFit := closes.stepCount_lt linesFit
  have readable := populated.exists_read_iff stepsFit linesFit ascending written
  simp only [closes.mem_keys_iff] at readable
  rw [← readable]
  constructor
  · rintro ⟨document, read, -⟩
    exact ⟨document, read⟩
  · rintro ⟨document, read⟩
    have nodes := populated.nodes_of_read stepsFit linesFit ascending written read
    rw [← nodes] at nodup perm
    exact ⟨document, read, nodup, perm⟩

/-- Two contacts that overlap, of a number and a text. -/
theorem exists_read_graphText_iff_overlapping :
    let contacts : List Contact :=
      [⟨.text "anna", .number 7, 0, 5⟩, ⟨.number 7, .text "anna", 3, 9⟩]
    let pair : Pair NodeName := .of (.number 7) (.text "anna")
    let timeline : Timeline := ⟨Table.ofList [(.number 7, ()), (.text "anna", ())],
      [⟨0, [⟨.add, pair⟩]⟩, ⟨9, [⟨.delete, pair⟩]⟩]⟩
    let text := "DGS004\ng 3 4\nst 0\nan n7\nan anna\nst 1\nae e0 n7 anna\nst 10\nde e0\n"
    Contact.readTrace "anna\t7\t0\t5\n7\t anna\t+3\t9\n" = .ok contacts ∧
      Timeline.ofContacts contacts 10 = .ok timeline ∧ timeline.graphText "g" = .ok text ∧
      timeline.lineCount < UInt64.size ∧
      ((∃ document, Document.read text = .ok document ∧ document.nodes.Nodup ∧
          document.nodes.Perm ((Contact.names contacts).dedup.map NodeName.label)) ↔
        "g".toList.head? ≠ some '#' ∧
          ∀ name ∈ Contact.names contacts, Timeline.LegibleLabel name.label) := by
  intro contacts pair timeline text
  have traceRead : Contact.readTrace "anna\t7\t0\t5\n7\t anna\t+3\t9\n" = .ok contacts := by
    decide +kernel
  have ordered : contacts.Pairwise fun first second => (first.order second).isLE := by decide
  have merged : Timeline.ofContacts contacts 10 = .ok timeline := by
    rw [ofContacts_of_ordered ordered]
    decide +kernel
  have written : timeline.graphText "g" = .ok text := by decide +kernel
  have linesFit : timeline.lineCount < UInt64.size := by decide +kernel
  exact ⟨traceRead, merged, written, linesFit,
    exists_read_graphText_iff traceRead merged written linesFit⟩

/-- A name with a blank in it is written, but the line that adds its edge cannot be read. -/
theorem exists_graphText_not_read :
    let contacts : List Contact := [⟨.text "a b", .text "c", 0, 5⟩]
    ∃ timeline text, Contact.readTrace "a b\tc\t0\t5\n" = .ok contacts ∧
      Timeline.ofContacts contacts 10 = .ok timeline ∧
      timeline.graphText "contacts" = .ok text ∧
      Document.read text = .error (.format 7 (.stream (.malformedAdd "ae e0 a b c"))) := by
  intro contacts
  have ordered : contacts.Pairwise fun first second => (first.order second).isLE := by decide
  refine ⟨⟨Table.ofList [(.text "a b", ()), (.text "c", ())],
    [⟨0, [⟨.add, .of (.text "a b") (.text "c")⟩]⟩,
      ⟨5, [⟨.delete, .of (.text "a b") (.text "c")⟩]⟩]⟩,
    "DGS004\ncontacts 3 4\nst 0\nan a b\nan c\nst 1\nae e0 a b c\nst 6\nde e0\n",
    by decide +kernel, ?_, by decide +kernel, by decide +kernel⟩
  rw [ofContacts_of_ordered ordered]
  decide +kernel

end ContactReplay
