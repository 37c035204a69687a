import ContactReplay.Daemon.Configurator
import ContactReplay.Proofs.Text.Occurrence

/-!
# Substitutions at once

A configurator carries its substitutions out one after the other, each in the text that the ones
before have left.  A `Patchwork` is a template that is cut at the places of some substitutions: it
has the template and what becomes of it side by side, so these places are places of the template
itself.

* An earlier substitution `Spares` a later one if the later pattern is apart from the earlier
  pattern and from what is put in its place.  Then carrying the later one out is cutting the
  patchwork once more (`sew`), at the place where its pattern stands first in the template.
* So substitutions that spare the later ones are carried out all at once, and there is only one
  text that this can lead to (`rewrittenAtOnce_iff_eq_foldl`).
-/

namespace ContactReplay

open Text

/-- A template cut at the places of some substitutions. -/
inductive Patchwork where
  | plain (text : List Char)
  | patch (text : List Char) (substitution : Substitution) (rest : Patchwork)

namespace Patchwork

def original : Patchwork → List Char
  | plain text => text
  | patch text substitution rest => text ++ substitution.pattern.toList ++ rest.original

def rewritten : Patchwork → List Char
  | plain text => text
  | patch text substitution rest => text ++ substitution.replacement.toList ++ rest.rewritten

/-- The substitutions, each with what stands before its place in the original text. -/
def places : Patchwork → List (List Char × Substitution)
  | plain _ => []
  | patch text substitution rest => (text, substitution) :: rest.places.map fun (before, placed) =>
      (text ++ substitution.pattern.toList ++ before, placed)

/-- Cut once more where the pattern of a substitution stands first in what is left as it was. -/
def sew (substitution : Substitution) : Patchwork → Patchwork
  | plain text =>
      match findFirst substitution.pattern.toList text with
      | some (before, after) => patch before substitution (plain after)
      | none => plain text
  | patch text placed rest =>
      match findFirst substitution.pattern.toList text with
      | some (before, after) => patch before substitution (patch after placed rest)
      | none => patch text placed (rest.sew substitution)

end Patchwork

/-- A text is what a template becomes when some substitutions are carried out at once: the template
is cut where their patterns stand first in it, and the replacements are put in their places. -/
def RewrittenAtOnce (substitutions : List Substitution) (template text : String) : Prop :=
  ∃ patchwork : Patchwork, patchwork.original = template.toList ∧
    patchwork.rewritten = text.toList ∧
    ∀ before substitution, (before, substitution) ∈ patchwork.places ↔
      substitution ∈ substitutions ∧
        FirstAfter substitution.pattern.toList template.toList before

/-- Neither the pattern of a substitution nor its replacement is ever overlapped by an occurrence of
a later pattern. -/
structure Substitution.Spares (earlier later : Substitution) : Prop where
  pattern : Apart later.pattern.toList earlier.pattern.toList
  replacement : Apart later.pattern.toList earlier.replacement.toList

theorem Substitution.toList_carryOut (substitution : Substitution) (text : String) :
    (substitution.carryOut text).toList =
      match findFirst substitution.pattern.toList text.toList with
      | some (before, after) => before ++ substitution.replacement.toList ++ after
      | none => text.toList := by
  rw [carryOut, replaceFirst]
  cases findFirst substitution.pattern.toList text.toList with
  | none => rfl
  | some parts => exact String.toList_ofList

/-! ## Cutting once more -/

namespace Patchwork

variable {substitution : Substitution} {patchwork : Patchwork}

theorem original_sew (substitution : Substitution) (patchwork : Patchwork) :
    (patchwork.sew substitution).original = patchwork.original := by
  induction patchwork with
  | plain text =>
      rw [sew]
      split
      · rename_i found
        exact (eq_append_of_findFirst found).symm
      · rfl
  | patch text placed rest inductionHypothesis =>
      rw [sew]
      split
      · rename_i found
        simp only [original]
        rw [eq_append_of_findFirst found]
        simp only [List.append_assoc]
      · rw [original, inductionHypothesis, original]

/-- What has been carried out spares a substitution. -/
def Spares (patchwork : Patchwork) (substitution : Substitution) : Prop :=
  ∀ place ∈ patchwork.places, place.2.Spares substitution

theorem spares_patch_iff {text : List Char} {placed : Substitution} {rest : Patchwork} :
    (patch text placed rest).Spares substitution ↔
      placed.Spares substitution ∧ rest.Spares substitution := by
  rw [Spares, places, List.forall_mem_cons, List.forall_mem_map]
  rfl

theorem rewritten_sew (spares : patchwork.Spares substitution) :
    (patchwork.sew substitution).rewritten =
      match findFirst substitution.pattern.toList patchwork.rewritten with
      | some (before, after) => before ++ substitution.replacement.toList ++ after
      | none => patchwork.rewritten := by
  induction patchwork with
  | plain text =>
      rw [sew, rewritten]
      split <;> rfl
  | patch text placed rest inductionHypothesis =>
      obtain ⟨sparesNow, sparesRest⟩ := spares_patch_iff.mp spares
      rw [sew, rewritten]
      cases found : findFirst substitution.pattern.toList text with
      | some parts =>
          obtain ⟨before, after⟩ := parts
          rw [List.append_assoc, findFirst_append_of_some found]
          simp only [rewritten, List.append_assoc]
      | none =>
          rw [findFirst_append_of_none sparesNow.replacement found]
          simp only [rewritten, inductionHypothesis sparesRest]
          cases findFirst substitution.pattern.toList rest.rewritten with
          | none => rfl
          | some parts => simp only [Option.map_some, List.append_assoc]

/-- The new place is where the pattern stands first in the original text. -/
theorem places_sew (spares : patchwork.Spares substitution) :
    (patchwork.sew substitution).places.Perm (patchwork.places ++
      ((findFirst substitution.pattern.toList patchwork.original).map fun (before, _) =>
        (before, substitution)).toList) := by
  induction patchwork with
  | plain text =>
      rw [sew, original]
      split
      · rename_i found
        rw [found]
        rfl
      · rename_i absent
        rw [absent]
        rfl
  | patch text placed rest inductionHypothesis =>
      obtain ⟨sparesNow, sparesRest⟩ := spares_patch_iff.mp spares
      rw [sew, original]
      cases found : findFirst substitution.pattern.toList text with
      | some parts =>
          obtain ⟨before, after⟩ := parts
          rw [List.append_assoc, findFirst_append_of_some found]
          have whole := eq_append_of_findFirst found
          simp only [places, List.map_cons, List.map_map, Function.comp_def, Option.map_some,
            Option.toList_some, ← List.append_assoc, ← whole]
          exact (List.perm_append_singleton _ _).symm
      | none =>
          rw [findFirst_append_of_none sparesNow.pattern found]
          simp only [places, List.cons_append]
          refine List.Perm.cons _ ?_
          refine ((inductionHypothesis sparesRest).map _).trans (List.Perm.of_eq ?_)
          rw [List.map_append]
          cases findFirst substitution.pattern.toList rest.original <;> rfl

end Patchwork

/-! ## One after the other and at once -/

theorem rewrittenAtOnce_nil (template : String) : RewrittenAtOnce [] template template :=
  ⟨.plain template.toList, rfl, rfl, fun _ _ => by simp [Patchwork.places]⟩

/-- One more substitution is carried out together with those that spare it. -/
theorem RewrittenAtOnce.carryOut {substitutions : List Substitution} {template text : String}
    (rewritten : RewrittenAtOnce substitutions template text) {substitution : Substitution}
    (spared : ∀ earlier ∈ substitutions, earlier.Spares substitution) :
    RewrittenAtOnce (substitutions ++ [substitution]) template (substitution.carryOut text) := by
  obtain ⟨patchwork, original, result, places⟩ := rewritten
  have spares : patchwork.Spares substitution := fun place member =>
    spared place.2 ((places place.1 place.2).mp member).1
  refine ⟨patchwork.sew substitution, ?_, ?_, fun before placed => ?_⟩
  · rw [Patchwork.original_sew, original]
  · rw [Patchwork.rewritten_sew spares, result, substitution.toList_carryOut]
  · rw [(Patchwork.places_sew spares).mem_iff, List.mem_append, places, List.mem_append, original,
      List.mem_singleton, or_and_right]
    refine or_congr_right ?_
    rw [Option.mem_toList, Option.map_eq_some_iff]
    constructor
    · rintro ⟨⟨skipped, rest⟩, found, same⟩
      obtain ⟨rfl, rfl⟩ := Prod.mk.inj same
      exact ⟨rfl, exists_findFirst_iff.mp ⟨rest, found⟩⟩
    · rintro ⟨rfl, here⟩
      obtain ⟨rest, found⟩ := exists_findFirst_iff.mpr here
      exact ⟨(before, rest), found, rfl⟩

/-- Substitutions that spare the later ones are carried out at once when they are carried out one
after the other. -/
theorem rewrittenAtOnce_foldl {substitutions : List Substitution}
    (spare : substitutions.Pairwise Substitution.Spares) (template : String) :
    RewrittenAtOnce substitutions template
      (substitutions.foldl (fun text substitution => substitution.carryOut text) template) := by
  induction substitutions using List.reverseRecOn with
  | nil => exact rewrittenAtOnce_nil template
  | append_singleton earlier last inductionHypothesis =>
      obtain ⟨spareEarlier, -, spareLast⟩ := List.pairwise_append.mp spare
      rw [List.foldl_append]
      refine (inductionHypothesis spareEarlier).carryOut fun substitution member => ?_
      exact spareLast substitution member last (List.mem_singleton_self last)

/-! ## Only one text -/

namespace Patchwork

theorem mem_places_patch_iff {text : List Char} {placed : Substitution} {rest : Patchwork}
    (visible : placed.pattern.toList ≠ []) (before : List Char) (substitution : Substitution) :
    (text ++ placed.pattern.toList ++ before, substitution) ∈ (patch text placed rest).places ↔
      (before, substitution) ∈ rest.places := by
  rw [places, List.mem_cons, or_iff_right]
  · simp
  · simp [visible]

/-- The places after the first one are to the right of it. -/
theorem length_le_of_mem_places_patch {text before : List Char} {placed substitution : Substitution}
    {rest : Patchwork} (member : (before, substitution) ∈ (patch text placed rest).places) :
    (before, substitution) = (text, placed) ∨
      text.length + placed.pattern.toList.length ≤ before.length := by
  rw [places, List.mem_cons, List.mem_map] at member
  refine member.imp_right ?_
  rintro ⟨⟨between, later⟩, -, same⟩
  obtain ⟨rfl, -⟩ := Prod.mk.inj same
  rw [List.length_append, List.length_append]
  exact Nat.le_add_right _ _

/-- A template is cut in one way only at the same places. -/
theorem eq_of_places {first second : Patchwork} (original : first.original = second.original)
    (visible : ∀ place ∈ first.places, place.2.pattern.toList ≠ [])
    (samePlaces : ∀ before substitution, (before, substitution) ∈ first.places ↔
      (before, substitution) ∈ second.places) : first = second := by
  induction first generalizing second with
  | plain text =>
      cases second with
      | plain other => exact congrArg plain original
      | patch other otherPlaced otherRest =>
          cases (samePlaces other otherPlaced).mpr List.mem_cons_self
  | patch text placed rest inductionHypothesis =>
      cases second with
      | plain other => cases (samePlaces text placed).mp List.mem_cons_self
      | patch other otherPlaced otherRest =>
          have visiblePlaced : placed.pattern.toList ≠ [] :=
            visible (text, placed) List.mem_cons_self
          have long := List.length_pos_iff.mpr visiblePlaced
          obtain ⟨rfl, rfl⟩ : text = other ∧ placed = otherPlaced := by
            rcases length_le_of_mem_places_patch ((samePlaces _ _).mp List.mem_cons_self) with
              same | right
            · exact Prod.mk.inj same
            · rcases length_le_of_mem_places_patch ((samePlaces _ _).mpr List.mem_cons_self) with
                same | left
              · exact (Prod.mk.inj same).imp Eq.symm Eq.symm
              · omega
          have sameRest : rest = otherRest := by
            refine inductionHypothesis (List.append_cancel_left original) ?_ ?_
            · rintro ⟨before, substitution⟩ member
              exact visible (text ++ placed.pattern.toList ++ before, substitution)
                ((mem_places_patch_iff visiblePlaced before substitution).mpr member)
            · intro before substitution
              rw [← mem_places_patch_iff visiblePlaced, samePlaces,
                mem_places_patch_iff visiblePlaced]
          rw [sameRest]

end Patchwork

theorem RewrittenAtOnce.unique {substitutions : List Substitution} {template text other : String}
    (visible : ∀ substitution ∈ substitutions, substitution.pattern.toList ≠ [])
    (rewritten : RewrittenAtOnce substitutions template text)
    (otherwise : RewrittenAtOnce substitutions template other) : text = other := by
  obtain ⟨patchwork, original, result, places⟩ := rewritten
  obtain ⟨otherPatchwork, otherOriginal, otherResult, otherPlaces⟩ := otherwise
  have same : patchwork = otherPatchwork := by
    refine Patchwork.eq_of_places (original.trans otherOriginal.symm) ?_ ?_
    · exact fun place member => visible _ ((places place.1 place.2).mp member).1
    · exact fun before substitution =>
        (places before substitution).trans (otherPlaces before substitution).symm
  rw [← String.toList_inj, ← result, ← otherResult, same]

/-- Substitutions that spare the later ones lead, carried out one after the other, to the one text
that they lead to at once. -/
theorem rewrittenAtOnce_iff_eq_foldl {substitutions : List Substitution}
    (visible : ∀ substitution ∈ substitutions, substitution.pattern.toList ≠ [])
    (spare : substitutions.Pairwise Substitution.Spares) (template text : String) :
    RewrittenAtOnce substitutions template text ↔
      text = substitutions.foldl (fun text substitution => substitution.carryOut text)
        template := by
  have rewritten := rewrittenAtOnce_foldl spare template
  refine ⟨fun otherwise => otherwise.unique visible rewritten, ?_⟩
  rintro rfl
  exact rewritten

end ContactReplay
