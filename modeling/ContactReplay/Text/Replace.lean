/-!
# Replacing the first occurrence

`replaceFirst` looks for the leftmost place at which a pattern stands in a text and puts another
text there.  A text without the pattern stays as it is.
-/

namespace ContactReplay.Text

/-- The text around the leftmost occurrence of a pattern: what stands before it and what follows. -/
def findFirst (pattern : List Char) : List Char → Option (List Char × List Char)
  | [] => if pattern.isEmpty then some ([], []) else none
  | character :: rest =>
      if pattern.isPrefixOf (character :: rest) then
        some ([], (character :: rest).drop pattern.length)
      else
        (findFirst pattern rest).map fun (before, after) => (character :: before, after)

/-- Put a text in the place of the leftmost occurrence of a pattern. -/
def replaceFirst (pattern replacement text : String) : String :=
  match findFirst pattern.toList text.toList with
  | some (before, after) => String.ofList (before ++ replacement.toList ++ after)
  | none => text

/-! ## Laws -/

/-- The parts around an occurrence and the pattern make up the text. -/
theorem eq_append_of_findFirst {pattern text before after : List Char}
    (found : findFirst pattern text = some (before, after)) :
    text = before ++ pattern ++ after := by
  induction text generalizing before with
  | nil =>
      cases pattern with
      | nil => simp_all [findFirst]
      | cons _ _ => simp [findFirst] at found
  | cons head tail inductionHypothesis =>
      simp only [findFirst] at found
      split at found
      · rename_i here
        obtain ⟨rfl, rfl⟩ := Prod.mk.inj (Option.some.inj found)
        simpa using (List.prefix_iff_eq_append.mp (List.isPrefixOf_iff_prefix.mp here)).symm
      · obtain ⟨⟨earlier, later⟩, inTail, same⟩ := Option.map_eq_some_iff.mp found
        obtain ⟨rfl, rfl⟩ := Prod.mk.inj same
        simp [inductionHypothesis inTail]

/-- Nothing is found exactly when the pattern is no part of the text. -/
theorem findFirst_eq_none_iff {pattern text : List Char} :
    findFirst pattern text = none ↔ ¬ pattern <:+: text := by
  induction text with
  | nil => cases pattern <;> simp [findFirst]
  | cons head tail inductionHypothesis =>
      simp only [findFirst, List.infix_cons_iff]
      split
      · rename_i here
        simp [List.isPrefixOf_iff_prefix.mp here]
      · rename_i elsewhere
        have absent : ¬ pattern <+: head :: tail := fun here =>
          elsewhere (List.isPrefixOf_iff_prefix.mpr here)
        simp [inductionHypothesis, absent]

end ContactReplay.Text
