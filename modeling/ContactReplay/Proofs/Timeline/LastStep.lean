import ContactReplay.Proofs.Timeline.Coalescing

/-!
# Contacts at the last step

No pad can make a contact longer that lies wholly at the last step that there is.  A merger takes
such contacts in after all others:

* if the pair is connected up to the last step, the contact says nothing new;
* if the pair has parted before, it is added at the last step and deleted at that very step, but the
  deletion right before is taken out: the pair is added twice in a row (`Mark.finale`);
* if the pair has never been connected, the merger refuses the contact.

`Merger.Closes` describes what a merger holds in the end, and `closes_of_ofContacts` says that any
timeline of contacts comes from such a merger.
-/

namespace ContactReplay

/-- The last step that there is. -/
def lastStep : UInt64 := 18446744073709551615

theorem le_lastStep (step : UInt64) : step ≤ lastStep := by
  have bound := step.toNat_lt
  have largest : lastStep.toNat = 2 ^ 64 - 1 := by decide
  rw [UInt64.le_iff_toNat_le, largest]
  omega

theorem not_lastStep_lt (step : UInt64) : ¬lastStep < step :=
  UInt64.not_lt.mpr (le_lastStep step)

theorem eq_lastStep_of_le {step : UInt64} (reaches : lastStep ≤ step) : step = lastStep :=
  UInt64.le_antisymm (le_lastStep step) reaches

theorem saturatingAdd_lastStep (pad : UInt64) : saturatingAdd lastStep pad = lastStep := by
  apply eq_lastStep_of_le
  have largest : lastStep.toNat = 2 ^ 64 - 1 := by decide
  rw [UInt64.le_iff_toNat_le, toNat_saturatingAdd, largest]
  omega

theorem Contact.sound_of_lt {contact : Contact} (forward : contact.start ≤ contact.stop)
    (before : contact.start < lastStep) : contact.Sound where
  forward := forward
  bounded last := by
    have largest : lastStep.toNat = 2 ^ 64 - 1 := by decide
    rw [UInt64.lt_iff_toNat_lt, largest, last.1] at before
    exact Nat.lt_irrefl _ before

/-! ## Joining at the last step -/

namespace Mark

/-- The marks of stretches, the newest first, after a contact at the last step. -/
def finale (pair : Pair NodeName) : List Interval → List Mark
  | [] => []
  | latest :: earlier =>
      if latest.stop = lastStep then outline pair (latest :: earlier)
      else outline pair earlier ++
        [⟨latest.start, .add, pair⟩, ⟨lastStep, .add, pair⟩, ⟨lastStep, .delete, pair⟩]

section Join

variable {pair : Pair NodeName} {latest : Interval} {earlier : List Interval}

theorem join?_lastStep_of_empty : join? pair lastStep lastStep (outline pair []) = none := by
  have before : latestBefore pair lastStep [⟨lastStep, .add, pair⟩] = none := by
    rw [latestBefore]
    simp
  have opens : opensInterval pair lastStep [] = true := rfl
  have connected : connect pair lastStep [] = [⟨lastStep, .add, pair⟩] := by
    rw [connect, opens]
    rfl
  rw [outline_nil, join?, isCovered, opens, connected, part?, before]
  rfl

theorem eraseLast_before {mark other : Mark} (different : other ≠ mark) (marks : List Mark) :
    eraseLast mark (marks ++ [mark, other]) = marks ++ [other] := by
  have kept : (other == mark) = false := beq_eq_false_iff_ne.mpr different
  simp [eraseLast, kept]

/-- A pair that has parted before is added twice in a row. -/
theorem join?_lastStep_of_parted (swept : Interval.Swept lastStep (latest :: earlier))
    (ended : latest.stop < lastStep) :
    join? pair lastStep lastStep (outline pair (latest :: earlier)) =
      some (outline pair earlier ++
        [⟨latest.start, .add, pair⟩, ⟨lastStep, .add, pair⟩, ⟨lastStep, .delete, pair⟩]) := by
  have opens : opensInterval pair lastStep (outline pair (latest :: earlier)) = true :=
    @opensInterval_after pair (latest :: earlier) ⟨lastStep, lastStep⟩ swept.lasting
      (swept.ended_all ended)
  have uncovered : isCovered pair lastStep lastStep (outline pair (latest :: earlier)) = false := by
    rw [isCovered, opens]
    rfl
  have connected : connect pair lastStep (outline pair (latest :: earlier)) =
      outline pair (latest :: earlier) ++ [⟨lastStep, .add, pair⟩] := by
    rw [connect, if_pos opens]
    exact place_eq_concat fun mark _ => le_lastStep mark.step
  have found : latestBefore pair lastStep
      (outline pair (latest :: earlier) ++ [⟨lastStep, .add, pair⟩]) =
        some ⟨latest.stop, .delete, pair⟩ := by
    rw [latestBefore_concat_of_le (UInt64.le_refl _), outline_cons_split,
      latestBefore_concat_of_lt ended]
  rw [join?, uncovered, if_neg Bool.false_ne_true, connected, part?, found, Option.map_some]
  apply congrArg some
  -- The deletion right before the last step is taken out, although an addition stands after it.
  have erased : eraseLast ⟨latest.stop, .delete, pair⟩
      (outline pair (latest :: earlier) ++ [⟨lastStep, .add, pair⟩]) =
        (outline pair earlier ++ [⟨latest.start, .add, pair⟩]) ++ [⟨lastStep, .add, pair⟩] := by
    have different : (⟨lastStep, .add, pair⟩ : Mark) ≠ ⟨latest.stop, .delete, pair⟩ := by simp
    rw [outline_cons_split, List.append_assoc]
    exact eraseLast_before different _
  dsimp only
  rw [erased, place_eq_concat fun mark _ => le_lastStep mark.step]
  simp

theorem join?_lastStep_of_outline (swept : Interval.Swept lastStep (latest :: earlier)) :
    join? pair lastStep lastStep (outline pair (latest :: earlier)) =
      some (finale pair (latest :: earlier)) := by
  rw [finale]
  split
  · rename_i reaches
    have reached : lastStep ≤ latest.stop := UInt64.le_of_eq reaches.symm
    have absorbed : Interval.absorb (latest :: earlier) ⟨lastStep, lastStep⟩ =
        latest :: earlier := by
      rw [Interval.absorb, if_neg (UInt64.not_lt.mpr reached), if_pos reached]
    have within := @join?_within pair earlier latest ⟨lastStep, lastStep⟩ swept reached
    rwa [absorbed] at within
  · rename_i parted
    exact join?_lastStep_of_parted swept (UInt64.lt_of_le_of_ne (le_lastStep _) parted)

theorem isCovered_of_mem {marks : List Mark} {step : UInt64}
    (added : ⟨step, .add, pair⟩ ∈ marks) (deleted : ⟨step, .delete, pair⟩ ∈ marks) :
    isCovered pair step step marks = true := by
  have opens : opensInterval pair step marks = false := if_pos added
  have closes : (marks.find? fun mark =>
      mark.event = ⟨.delete, pair⟩ ∧ step ≤ mark.step).isSome = true :=
    List.find?_isSome.mpr ⟨_, deleted, by simp⟩
  obtain ⟨mark, found⟩ := Option.isSome_iff_exists.mp closes
  have held := List.find?_some found
  rw [decide_eq_true_eq] at held
  rw [isCovered, opens, closingStep?, found]
  simpa using held.2

/-- Another contact at the last step says nothing new. -/
theorem join?_lastStep_of_finale (swept : Interval.Swept lastStep (latest :: earlier)) :
    join? pair lastStep lastStep (finale pair (latest :: earlier)) =
      some (finale pair (latest :: earlier)) := by
  by_cases reaches : latest.stop = lastStep
  · have same : finale pair (latest :: earlier) = outline pair (latest :: earlier) := if_pos reaches
    rw [same, join?_lastStep_of_outline swept, same]
  · rw [finale, if_neg reaches, join?, if_pos]
    exact isCovered_of_mem (by simp) (by simp)

end Join

end Mark

/-! ## What a merger holds in the end -/

namespace Merger

/-- A contact that has been taken in does not end before it begins, and its marks could be
joined. -/
theorem exists_join?_of_feed {merger next : Merger} {contact : Contact}
    (fed : merger.feed contact = (.ok (), next)) :
    contact.start ≤ contact.stop ∧ ∃ joined,
      Mark.join? contact.pair contact.start (merger.paddedStop contact) merger.marks =
        some joined ∧
      next = { merger.enroll contact with marks := joined } := by
  rw [feed] at fed
  split at fed
  · cases (Prod.mk.inj fed).1
  · rename_i accepted
    refine ⟨?_, ?_⟩
    · rw [refusal?] at accepted
      split at accepted
      · cases accepted
      · rename_i forward
        exact UInt64.not_lt.mp forward
    · rw [Mark.join?]
      dsimp only at fed
      split at fed
      · rename_i covered
        rw [if_pos covered]
        exact ⟨_, rfl, (Prod.mk.inj fed).2.symm⟩
      · rename_i uncovered
        rw [if_neg uncovered]
        split at fed
        · rename_i parted done
          exact ⟨parted, done, (Prod.mk.inj fed).2.symm⟩
        · cases (Prod.mk.inj fed).1

theorem exists_of_feedAll_cons {merger full : Merger} {contact : Contact} {rest : List Contact}
    (fed : merger.feedAll (contact :: rest) = .ok full) :
    ∃ next, merger.feed contact = (.ok (), next) ∧ next.feedAll rest = .ok full := by
  rw [feedAll, List.foldlM_cons] at fed
  rcases taken : merger.feed contact with ⟨outcome, next⟩
  rw [taken] at fed
  cases outcome with
  | ok value => exact ⟨next, rfl, fed⟩
  | error error => cases fed

theorem exists_of_feedAll_append {merger full : Merger} {first second : List Contact}
    (fed : merger.feedAll (first ++ second) = .ok full) :
    ∃ middle, merger.feedAll first = .ok middle ∧ middle.feedAll second = .ok full := by
  induction first generalizing merger with
  | nil => exact ⟨merger, rfl, fed⟩
  | cons contact rest inductionHypothesis =>
      obtain ⟨next, taken, restFed⟩ := exists_of_feedAll_cons fed
      obtain ⟨middle, firstFed, secondFed⟩ := inductionHypothesis restFed
      exact ⟨middle, (feedAll_cons taken).trans firstFed, secondFed⟩

theorem forward_of_feedAll {merger full : Merger} {contacts : List Contact}
    (fed : merger.feedAll contacts = .ok full) :
    ∀ contact ∈ contacts, contact.start ≤ contact.stop := by
  induction contacts generalizing merger with
  | nil => nofun
  | cons contact rest inductionHypothesis =>
      obtain ⟨next, taken, restFed⟩ := exists_of_feedAll_cons fed
      intro other member
      rcases List.mem_cons.mp member with rfl | later
      · exact (exists_join?_of_feed taken).1
      · exact inductionHypothesis restFed other later

/-- What a merger holds after contacts that begin before the last step and others that begin
there. -/
structure Closes (merger : Merger) (early late : List Contact) : Prop where
  sorted : Mark.Sorted merger.marks
  outlined : ∀ pair, (∀ contact ∈ late, contact.pair ≠ pair) → Mark.about pair merger.marks =
    Mark.outline pair (Interval.sweep (Contact.spans merger.pad pair early))
  finished : ∀ contact ∈ late, Mark.about contact.pair merger.marks =
    Mark.finale contact.pair (Interval.sweep (Contact.spans merger.pad contact.pair early))
  connected : ∀ contact ∈ late,
    Interval.sweep (Contact.spans merger.pad contact.pair early) ≠ []
  nodes : ∀ name, name ∈ merger.nodes.keys ↔
    ∃ contact ∈ early ++ late, name = contact.observer ∨ name = contact.observed

theorem Records.closes {merger : Merger} {contacts : List Contact}
    (records : merger.Records contacts) : merger.Closes contacts [] where
  sorted := records.sorted
  outlined pair _ := records.outline pair
  finished := nofun
  connected := nofun
  nodes := by simpa using records.nodes

section Late

variable {merger : Merger} {early late : List Contact} {contact : Contact}

theorem paddedStop_lastStep (begins : contact.start = lastStep)
    (forward : contact.start ≤ contact.stop) : merger.paddedStop contact = lastStep := by
  have ends : contact.stop = lastStep := eq_lastStep_of_le (begins ▸ forward)
  rw [paddedStop, begins, ends, if_pos rfl, saturatingAdd_lastStep]

/-- Contacts that begin before the last step are swept into stretches. -/
theorem swept_spans {pad : UInt64} (positive : 0 < pad)
    (sound : ∀ contact ∈ early, contact.Sound)
    (ordered : early.Pairwise fun first second => first.start ≤ second.start)
    (pair : Pair NodeName) :
    Interval.Swept lastStep (Interval.sweep (Contact.spans pad pair early)) :=
  Interval.swept_sweep (Contact.spans_orderly positive sound ordered pair)
    fun interval _ => le_lastStep interval.start

theorem Closes.about_joined (closes : merger.Closes early late)
    (swept : Interval.Swept lastStep
      (Interval.sweep (Contact.spans merger.pad contact.pair early)))
    {joined : List Mark}
    (done : Mark.join? contact.pair lastStep lastStep merger.marks = some joined) :
    Interval.sweep (Contact.spans merger.pad contact.pair early) ≠ [] ∧
      Mark.about contact.pair joined = Mark.finale contact.pair
        (Interval.sweep (Contact.spans merger.pad contact.pair early)) := by
  have joinedAbout : Mark.join? contact.pair lastStep lastStep
      (Mark.about contact.pair merger.marks) = some (Mark.about contact.pair joined) := by
    rw [← Mark.map_about_join? closes.sorted, done]
    rfl
  by_cases known : ∃ other ∈ late, other.pair = contact.pair
  · obtain ⟨other, member, same⟩ := known
    have finished := closes.finished other member
    have connected := closes.connected other member
    rw [same] at finished connected
    rw [finished] at joinedAbout
    obtain ⟨latest, earlier, stretches⟩ := List.exists_cons_of_ne_nil connected
    rw [stretches] at swept joinedAbout ⊢
    rw [Mark.join?_lastStep_of_finale swept] at joinedAbout
    exact ⟨List.cons_ne_nil _ _, (Option.some.inj joinedAbout).symm⟩
  · have outlined := closes.outlined contact.pair fun other member same =>
      known ⟨other, member, same⟩
    rw [outlined] at joinedAbout
    cases stretches : Interval.sweep (Contact.spans merger.pad contact.pair early) with
    | nil =>
        rw [stretches, Mark.join?_lastStep_of_empty] at joinedAbout
        cases joinedAbout
    | cons latest earlier =>
        rw [stretches] at swept joinedAbout
        rw [Mark.join?_lastStep_of_outline swept] at joinedAbout
        exact ⟨List.cons_ne_nil _ _, (Option.some.inj joinedAbout).symm⟩

/-- Taking in a contact that begins at the last step. -/
theorem Closes.feed (closes : merger.Closes early late) (positive : 0 < merger.pad)
    (sound : ∀ contact ∈ early, contact.Sound)
    (ordered : early.Pairwise fun first second => first.start ≤ second.start)
    (begins : contact.start = lastStep) {next : Merger}
    (fed : merger.feed contact = (.ok (), next)) :
    next.Closes early (late ++ [contact]) ∧ next.pad = merger.pad := by
  obtain ⟨forward, joined, done, rfl⟩ := exists_join?_of_feed fed
  rw [paddedStop_lastStep begins forward, begins] at done
  obtain ⟨connected, finished⟩ :=
    closes.about_joined (swept_spans positive sound ordered contact.pair) done
  refine ⟨⟨Mark.join?_sorted closes.sorted done, ?_, ?_, ?_, ?_⟩, rfl⟩
  · intro pair absent
    have different : pair ≠ contact.pair := fun same =>
      absent contact (List.mem_append_right _ List.mem_cons_self) same.symm
    exact (Mark.about_of_join?_of_ne different done).trans
      (closes.outlined pair fun other member => absent other (List.mem_append_left _ member))
  · intro other member
    by_cases same : other.pair = contact.pair
    · rw [same]
      exact finished
    · rcases List.mem_append.mp member with known | new
      · exact (Mark.about_of_join?_of_ne same done).trans (closes.finished other known)
      · exact absurd (congrArg Contact.pair (List.mem_singleton.mp new)) same
  · intro other member
    rcases List.mem_append.mp member with known | new
    · exact closes.connected other known
    · rw [List.mem_singleton.mp new]
      exact connected
  · intro name
    rw [← List.append_assoc]
    exact mem_enroll_nodes closes.nodes name

theorem Closes.feedAll {rest : List Contact} (closes : merger.Closes early late)
    (positive : 0 < merger.pad) (sound : ∀ contact ∈ early, contact.Sound)
    (ordered : early.Pairwise fun first second => first.start ≤ second.start)
    (begin : ∀ contact ∈ rest, contact.start = lastStep) {full : Merger}
    (fed : merger.feedAll rest = .ok full) :
    full.Closes early (late ++ rest) ∧ full.pad = merger.pad := by
  induction rest generalizing merger late with
  | nil =>
      cases fed
      rw [List.append_nil]
      exact ⟨closes, rfl⟩
  | cons contact others inductionHypothesis =>
      obtain ⟨next, taken, othersFed⟩ := exists_of_feedAll_cons fed
      obtain ⟨nextCloses, samePad⟩ :=
        closes.feed positive sound ordered (begin contact List.mem_cons_self) taken
      obtain ⟨fullCloses, fullPad⟩ := inductionHypothesis nextCloses (samePad ▸ positive)
        (fun other member => begin other (List.mem_cons_of_mem _ member)) othersFed
      rw [List.append_assoc] at fullCloses
      exact ⟨fullCloses, fullPad.trans samePad⟩

end Late

end Merger

/-! ## Contacts in any order -/

namespace Contact

/-- The contacts that begin before the last step, in the order in which a merger takes them. -/
def early (contacts : List Contact) : List Contact :=
  (inOrder contacts).filter fun contact => contact.start < lastStep

/-- The contacts that begin at the last step. -/
def late (contacts : List Contact) : List Contact :=
  (inOrder contacts).filter fun contact => !decide (contact.start < lastStep)

theorem early_append_late (contacts : List Contact) :
    early contacts ++ late contacts = inOrder contacts := by
  have closed : (inOrder contacts).Pairwise fun earlier later =>
      decide (later.start < lastStep) = true → decide (earlier.start < lastStep) = true :=
    (inOrder_ordered contacts).imp fun ordered before => by
      rw [decide_eq_true_eq] at before ⊢
      exact UInt64.lt_of_le_of_lt ordered before
  rw [early, late, ← Mark.takeWhile_eq_filter closed, ← Mark.dropWhile_eq_filter closed,
    List.takeWhile_append_dropWhile]

theorem mem_early {contacts : List Contact} {contact : Contact} :
    contact ∈ early contacts ↔ contact ∈ contacts ∧ contact.start < lastStep := by
  rw [early, List.mem_filter, (inOrder_perm contacts).mem_iff, decide_eq_true_eq]

theorem mem_late {contacts : List Contact} {contact : Contact} :
    contact ∈ late contacts ↔ contact ∈ contacts ∧ contact.start = lastStep := by
  rw [late, List.mem_filter, (inOrder_perm contacts).mem_iff, Bool.not_eq_true',
    decide_eq_false_iff_not, UInt64.not_lt]
  exact and_congr_right fun _ => ⟨eq_lastStep_of_le, fun same => UInt64.le_of_eq same.symm⟩

theorem early_ordered (contacts : List Contact) :
    (early contacts).Pairwise fun first second => first.start ≤ second.start :=
  (inOrder_ordered contacts).filter _

end Contact

/-- A timeline of contacts, whichever they are, is that of a merger that holds their stretches. -/
theorem closes_of_ofContacts {contacts : List Contact} {pad : UInt64} {timeline : Timeline}
    (merged : Timeline.ofContacts contacts pad = .ok timeline) :
    ∃ merger : Merger, timeline = merger.timeline ∧ merger.pad = pad ∧ 0 < pad ∧
      (∀ contact ∈ Contact.early contacts, contact.Sound) ∧
      merger.Closes (Contact.early contacts) (Contact.late contacts) := by
  rw [Timeline.ofContacts, Merger.start] at merged
  split at merged
  · cases merged
  rename_i nonzero
  have positive : 0 < pad := UInt64.pos_iff_ne_zero.mpr nonzero
  have whole : Except.map Merger.timeline
      (Merger.feedAll { pad } (Contact.inOrder contacts)) = .ok timeline := merged
  cases fed : Merger.feedAll { pad } (Contact.inOrder contacts) with
  | error error =>
      rw [fed] at whole
      cases whole
  | ok full =>
      rw [fed] at whole
      obtain rfl : full.timeline = timeline := Except.ok.inj whole
      rw [← Contact.early_append_late] at fed
      have forward := Merger.forward_of_feedAll fed
      have sound : ∀ contact ∈ [] ++ Contact.early contacts, contact.Sound := fun contact member =>
        Contact.sound_of_lt (forward contact (List.mem_append_left _ member))
          (Contact.mem_early.mp member).2
      obtain ⟨middle, earlyFed, lateFed⟩ := Merger.exists_of_feedAll_append fed
      obtain ⟨same, sameFed, records, samePad⟩ := (Merger.records_start pad).feedAll positive sound
        (Contact.early_ordered contacts)
      rw [earlyFed] at sameFed
      obtain rfl := Except.ok.inj sameFed
      obtain ⟨closes, fullPad⟩ := records.closes.feedAll (samePad ▸ positive) sound
        (Contact.early_ordered contacts) (fun contact member => (Contact.mem_late.mp member).2)
        lateFed
      exact ⟨full, rfl, fullPad.trans samePad, positive, sound, closes⟩

end ContactReplay
