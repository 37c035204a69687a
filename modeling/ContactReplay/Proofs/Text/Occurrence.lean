import ContactReplay.Text.Replace
import Mathlib.Data.List.Infix

/-!
# Occurrences of a pattern

`FirstAfter pattern text before` says where the leftmost occurrence of a pattern is: right after a
part of the text.  This is what `findFirst` finds (`exists_findFirst_iff`).

A pattern is `Apart` from a part of texts if no occurrence of it ever overlaps this part, whatever
stands around it.  Then the part can be skipped: an occurrence is to the left of it or to the right
of it (`findFirst_append_of_some`, `findFirst_append_of_none`).  `apart_of_getLast` is a simple way
to see that two texts are apart.
-/

namespace ContactReplay.Text

variable {pattern text part before after left right : List Char}

/-! ## The leftmost occurrence -/

/-- A pattern stands in a text right after some part of it, and nowhere further left. -/
structure FirstAfter (pattern text before : List Char) : Prop where
  stands : before ++ pattern <+: text
  first : ∀ earlier, earlier ++ pattern <+: text → before.length ≤ earlier.length

theorem length_le_of_findFirst (found : findFirst pattern text = some (before, after))
    {earlier : List Char} (stands : earlier ++ pattern <+: text) :
    before.length ≤ earlier.length := by
  induction text generalizing before earlier with
  | nil =>
      have empty := (eq_append_of_findFirst found).symm
      rw [List.append_assoc, List.append_eq_nil_iff] at empty
      rw [empty.1]
      exact Nat.zero_le _
  | cons head tail inductionHypothesis =>
      simp only [findFirst] at found
      split at found
      · obtain ⟨rfl, -⟩ := Prod.mk.inj (Option.some.inj found)
        exact Nat.zero_le _
      · rename_i elsewhere
        obtain ⟨⟨skipped, rest⟩, inTail, same⟩ := Option.map_eq_some_iff.mp found
        obtain ⟨rfl, rfl⟩ := Prod.mk.inj same
        cases earlier with
        | nil => exact absurd (List.isPrefixOf_iff_prefix.mpr stands) elsewhere
        | cons first others =>
            exact Nat.succ_le_succ (inductionHypothesis inTail (List.cons_prefix_cons.mp stands).2)

theorem exists_findFirst_iff :
    (∃ after, findFirst pattern text = some (before, after)) ↔ FirstAfter pattern text before := by
  constructor
  · rintro ⟨after, found⟩
    exact ⟨⟨after, (eq_append_of_findFirst found).symm⟩, fun _ => length_le_of_findFirst found⟩
  · intro here
    cases found : findFirst pattern text with
    | none =>
        have part : pattern <:+: text := (List.suffix_append _ _).isInfix.trans here.stands.isInfix
        exact absurd part (findFirst_eq_none_iff.mp found)
    | some parts =>
        obtain ⟨skipped, rest⟩ := parts
        have stands : skipped ++ pattern <+: text := ⟨rest, (eq_append_of_findFirst found).symm⟩
        have sameLength : skipped.length = before.length :=
          Nat.le_antisymm (length_le_of_findFirst found here.stands) (here.first skipped stands)
        have skippedPrefix := (List.prefix_append skipped pattern).trans stands
        have beforePrefix := (List.prefix_append before pattern).trans here.stands
        obtain rfl : skipped = before :=
          (List.prefix_of_prefix_length_le skippedPrefix beforePrefix sameLength.le).eq_of_length
            sameLength
        exact ⟨rest, rfl⟩

/-! ## Texts with a part to skip -/

/-- What is found in a text is found in every longer text. -/
theorem findFirst_append_of_some (found : findFirst pattern left = some (before, after))
    (rest : List Char) : findFirst pattern (left ++ rest) = some (before, after ++ rest) := by
  have whole : left ++ rest = before ++ pattern ++ (after ++ rest) := by
    rw [eq_append_of_findFirst found, List.append_assoc]
  have here : FirstAfter pattern (left ++ rest) before := by
    refine ⟨⟨after ++ rest, whole.symm⟩, fun earlier stands => ?_⟩
    by_contra shorter
    -- An earlier occurrence would end before this one does, so it would be in the first text.
    have inside : earlier ++ pattern <+: left := by
      refine List.prefix_of_prefix_length_le stands (List.prefix_append left rest) ?_
      rw [eq_append_of_findFirst found]
      simp only [List.length_append]
      omega
    exact shorter (length_le_of_findFirst found inside)
  obtain ⟨others, foundWhole⟩ := exists_findFirst_iff.mpr here
  rw [foundWhole]
  have same := whole.symm.trans (eq_append_of_findFirst foundWhole)
  rw [List.append_cancel_left same]

/-- A beginning in which no occurrence begins is skipped. -/
theorem findFirst_append_of_later
    (later : ∀ before after, left ++ right = before ++ pattern ++ after →
      left.length ≤ before.length) :
    findFirst pattern (left ++ right) =
      (findFirst pattern right).map fun (before, after) => (left ++ before, after) := by
  induction left with
  | nil => simp
  | cons head tail inductionHypothesis =>
      have elsewhere : ¬ pattern.isPrefixOf (head :: (tail ++ right)) = true := by
        intro here
        obtain ⟨after, same⟩ := List.isPrefixOf_iff_prefix.mp here
        exact absurd (later [] after same.symm) (by simp)
      have tailLater : ∀ before after, tail ++ right = before ++ pattern ++ after →
          tail.length ≤ before.length := fun before after same =>
        Nat.le_of_succ_le_succ (later (head :: before) after (congrArg (head :: ·) same))
      rw [List.cons_append, findFirst, if_neg elsewhere, inductionHypothesis tailLater,
        Option.map_map]
      rfl

/-- Wherever a part stands in a text, no occurrence of a pattern overlaps it. -/
def Apart (pattern part : List Char) : Prop :=
  ∀ left right before after, left ++ part ++ right = before ++ pattern ++ after →
    before.length + pattern.length ≤ left.length ∨ left.length + part.length ≤ before.length

/-- A part that a pattern is apart from is skipped together with a text that does not have it. -/
theorem findFirst_append_of_none (apart : Apart pattern part)
    (absent : findFirst pattern left = none) (right : List Char) :
    findFirst pattern (left ++ part ++ right) =
      (findFirst pattern right).map fun (before, after) => (left ++ part ++ before, after) := by
  refine findFirst_append_of_later fun before after same => ?_
  rw [List.length_append]
  refine (apart left right before after same).resolve_left fun inside => ?_
  rw [List.append_assoc] at same
  have stands : before ++ pattern <+: left :=
    List.prefix_of_prefix_length_le ⟨after, same.symm⟩ (List.prefix_append left _)
      (by rwa [List.length_append])
  exact findFirst_eq_none_iff.mp absent ((List.suffix_append _ _).isInfix.trans stands.isInfix)

/-! ## Texts that are apart -/

/-- What stands at a place of the middle of three texts. -/
theorem getElem?_middle (left middle right : List Char) {place : Nat}
    (inside : place < middle.length) :
    (left ++ middle ++ right)[left.length + place]? = middle[place]? := by
  rw [List.append_assoc, List.getElem?_append_right (Nat.le_add_right _ _),
    Nat.add_sub_cancel_left, List.getElem?_append_left inside]

/-- Two texts that stand in one text have the same characters where they overlap. -/
theorem getElem?_of_overlap (same : left ++ part ++ right = before ++ pattern ++ after)
    (place otherPlace : Nat) (inside : place < part.length)
    (otherInside : otherPlace < pattern.length)
    (aligned : left.length + place = before.length + otherPlace) :
    part[place]? = pattern[otherPlace]? := by
  rw [← getElem?_middle left part right inside, same, aligned,
    getElem?_middle before pattern after otherInside]

/-- Two texts are apart if neither has the last character of the other. -/
theorem apart_of_getLast {front otherFront : List Char} {last otherLast : Char}
    (absent : last ∉ otherFront ++ [otherLast]) (otherAbsent : otherLast ∉ front ++ [last]) :
    Apart (front ++ [last]) (otherFront ++ [otherLast]) := by
  intro left right before after same
  have ends : ∀ (front : List Char) (last : Char),
      (front ++ [last])[front.length]? = some last := by simp
  have lengths : ∀ (front : List Char) (last : Char),
      (front ++ [last]).length = front.length + 1 := by simp
  by_contra overlap
  rw [lengths, lengths, not_or, Nat.not_le, Nat.not_le] at overlap
  rcases Nat.lt_or_ge (left.length + otherFront.length) (before.length + front.length) with
    further | nearer
  · -- The part ends within the occurrence.
    obtain ⟨place, reached⟩ := Nat.exists_eq_add_of_le (show before.length ≤
      left.length + otherFront.length by omega)
    have held := getElem?_of_overlap same _ _ (by rw [lengths]; omega) (by rw [lengths]; omega)
      reached
    rw [ends] at held
    exact otherAbsent (List.mem_of_getElem? held.symm)
  · -- The occurrence ends within the part.
    obtain ⟨place, reached⟩ := Nat.exists_eq_add_of_le (show left.length ≤
      before.length + front.length by omega)
    have held := getElem?_of_overlap same _ _ (by rw [lengths]; omega) (by rw [lengths]; omega)
      reached.symm
    rw [ends] at held
    exact absent (List.mem_of_getElem? held)

end ContactReplay.Text
