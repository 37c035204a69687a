import ContactReplay.Proofs.Daemon.Patchwork

/-!
# Filling templates

The texts that a configurator looks for are four assignments `key = "value"` and the line that
marks where the addresses of the neighbours belong.  An assignment whose key and value have neither
a quote nor an equals sign has its quotes and its equals sign where its length says, so two
assignments with different keys are never found over each other (`apart_assignment`).

Hence the order of the substitutions is of no account when the settings are `Inert`: a configuration
is its template, rewritten at once (`rewrittenAtOnce_configure`).
-/

namespace ContactReplay

namespace Text

/-- A text that cannot end the value of an assignment and cannot be taken for one. -/
structure Inert (text : List Char) : Prop where
  unquoted : '"' ∉ text
  unassigned : '=' ∉ text
  single : '\n' ∉ text

instance (text : List Char) : Decidable (Inert text) :=
  decidable_of_iff ('"' ∉ text ∧ '=' ∉ text ∧ '\n' ∉ text)
    ⟨fun ⟨unquoted, unassigned, single⟩ => ⟨unquoted, unassigned, single⟩,
      fun inert => ⟨inert.unquoted, inert.unassigned, inert.single⟩⟩

/-! ## Assignments -/

/-- The text that gives a key a value. -/
def assignment (key value : List Char) : List Char :=
  key ++ [' ', '=', ' ', '"'] ++ value ++ ['"']

section Assignment

variable {key value otherKey otherValue : List Char}

theorem length_assignment (key value : List Char) :
    (assignment key value).length = key.length + value.length + 5 := by
  simp only [assignment, List.length_append, List.length_cons, List.length_nil]
  omega

/-- Where a character stands that is not in the beginning of a text. -/
theorem getElem?_append_cons_iff {front rest : List Char} {character : Char}
    (absent : character ∉ front) (place : Nat) :
    (front ++ character :: rest)[place]? = some character ↔
      place = front.length ∨ ∃ later, place = front.length + 1 + later ∧
        rest[later]? = some character := by
  rcases Nat.lt_trichotomy place front.length with inFront | rfl | behind
  · rw [List.getElem?_append_left inFront]
    refine iff_of_false (fun held => absent (List.mem_of_getElem? held)) ?_
    rintro (rfl | ⟨later, rfl, -⟩) <;> omega
  · simp
  · obtain ⟨later, rfl⟩ := Nat.exists_eq_add_of_le (Nat.succ_le_of_lt behind)
    rw [List.getElem?_append_right (by omega),
      show front.length.succ + later - front.length = later + 1 by omega, List.getElem?_cons_succ]
    constructor
    · exact fun held => Or.inr ⟨later, rfl, held⟩
    · rintro (same | ⟨other, same, held⟩)
      · omega
      · obtain rfl : later = other := by omega
        exact held

/-- The quotes are around the value. -/
theorem assignment_quote_iff (unquotedKey : '"' ∉ key) (unquoted : '"' ∉ value) (place : Nat) :
    (assignment key value)[place]? = some '"' ↔
      place = key.length + 3 ∨ place = key.length + value.length + 4 := by
  have parts : assignment key value = (key ++ [' ', '=', ' ']) ++ '"' :: (value ++ '"' :: []) := by
    simp [assignment]
  rw [parts, getElem?_append_cons_iff (by simpa using unquotedKey)]
  simp only [getElem?_append_cons_iff unquoted, List.length_append, List.length_cons,
    List.length_nil, List.getElem?_nil, reduceCtorEq, and_false, exists_false, or_false]
  constructor
  · rintro (rfl | ⟨later, rfl, rfl⟩) <;> omega
  · rintro (rfl | rfl)
    · exact Or.inl rfl
    · exact Or.inr ⟨value.length, by omega, rfl⟩

/-- The equals sign is after the key and a space. -/
theorem assignment_sign_iff (unassignedKey : '=' ∉ key) (unassigned : '=' ∉ value) (place : Nat) :
    (assignment key value)[place]? = some '=' ↔ place = key.length + 1 := by
  have parts : assignment key value = (key ++ [' ']) ++ '=' :: ([' ', '"'] ++ value ++ ['"']) := by
    simp [assignment]
  have absent : '=' ∉ [' ', '"'] ++ value ++ ['"'] := by simpa using unassigned
  rw [parts, getElem?_append_cons_iff (by simpa using unassignedKey), List.length_append,
    List.length_singleton]
  refine or_iff_left ?_
  rintro ⟨later, -, held⟩
  exact absent (List.mem_of_getElem? held)

/-- The last character of the key is before the equals sign. -/
theorem assignment_getLast (front : List Char) (last : Char) (value : List Char) :
    (assignment (front ++ [last]) value)[front.length]? = some last := by
  simp [assignment]

section Apart

variable {left right before after front otherFront : List Char} {last otherLast : Char}

/-- An assignment never ends within another one whose key has another last character. -/
theorem assignment_end_notWithin (inertKey : Inert (front ++ [last])) (inert : Inert value)
    (otherInertKey : Inert (otherFront ++ [otherLast])) (otherInert : Inert otherValue)
    (different : last ≠ otherLast)
    (same : left ++ assignment (otherFront ++ [otherLast]) otherValue ++ right =
      before ++ assignment (front ++ [last]) value ++ after)
    (begun : left.length ≤ before.length + (front.length + value.length + 5)) :
    left.length + (otherFront.length + otherValue.length + 5) <
      before.length + (front.length + value.length + 5) := by
  have quotes := assignment_quote_iff inertKey.unquoted inert.unquoted
  have otherQuotes := assignment_quote_iff otherInertKey.unquoted otherInert.unquoted
  have signs := assignment_sign_iff inertKey.unassigned inert.unassigned
  have otherSigns := assignment_sign_iff otherInertKey.unassigned otherInert.unassigned
  have length := length_assignment (front ++ [last]) value
  have otherLength := length_assignment (otherFront ++ [otherLast]) otherValue
  simp only [List.length_append, List.length_singleton] at quotes signs length
  simp only [List.length_append, List.length_singleton] at otherQuotes otherSigns otherLength
  by_contra within
  obtain ⟨place, reached⟩ := Nat.exists_eq_add_of_le begun
  have ends := getElem?_of_overlap same _ _ (by omega) (by omega) reached.symm
  rw [(quotes _).mpr (Or.inr (by omega)), otherQuotes] at ends
  rcases ends with opening | closing
  · -- Where the value of the other assignment begins, its equals sign would be in this value.
    have held := getElem?_of_overlap same (otherFront.length + 2)
      (front.length + value.length + 3) (by omega) (by omega) (by omega)
    rw [(otherSigns _).mpr rfl, eq_comm, signs] at held
    omega
  · rcases Nat.lt_trichotomy value.length otherValue.length with shorter | sameLength | longer
    · obtain ⟨inside, offset⟩ := Nat.exists_eq_add_of_le (show left.length ≤
        before.length + (front.length + 4) by omega)
      have held := getElem?_of_overlap same _ _ (by omega) (by omega) offset.symm
      rw [(quotes _).mpr (Or.inl rfl), otherQuotes] at held
      omega
    · -- Both keys end at the same place.
      have held := getElem?_of_overlap same otherFront.length front.length (by omega) (by omega)
        (by omega)
      rw [assignment_getLast, assignment_getLast] at held
      exact different (Option.some.inj held).symm
    · obtain ⟨inside, offset⟩ := Nat.exists_eq_add_of_le (show before.length ≤
        left.length + (otherFront.length + 4) by omega)
      have held := getElem?_of_overlap same _ _ (by omega) (by omega) offset
      rw [(otherQuotes _).mpr (Or.inl rfl), eq_comm, quotes] at held
      omega

/-- Assignments are apart if their keys have different last characters. -/
theorem apart_assignment (inertKey : Inert (front ++ [last])) (inert : Inert value)
    (otherInertKey : Inert (otherFront ++ [otherLast])) (otherInert : Inert otherValue)
    (different : last ≠ otherLast) :
    Apart (assignment (front ++ [last]) value)
      (assignment (otherFront ++ [otherLast]) otherValue) := by
  intro left right before after same
  rw [length_assignment, length_assignment]
  simp only [List.length_append, List.length_singleton]
  by_contra overlap
  have further := assignment_end_notWithin inertKey inert otherInertKey otherInert different same
    (by omega)
  have nearer := assignment_end_notWithin otherInertKey otherInert inertKey inert different.symm
    same.symm (by omega)
  omega

end Apart

end Assignment

end Text

open Text

/-! ## The substitutions of a configuration -/

namespace Substitution

/-- The substitution that gives a key another value. -/
def ofSetting (key former current : String) : Substitution :=
  ⟨key ++ " = \"" ++ former ++ "\"", key ++ " = \"" ++ current ++ "\""⟩

/-- A substitution gives another value to a key with this last character. -/
inductive Sets (last : Char) : Substitution → Prop where
  | intro {key former current : String} (ends : key.toList.getLast? = some last)
      (inertKey : Text.Inert key.toList) (inertFormer : Text.Inert former.toList)
      (inertCurrent : Text.Inert current.toList) : Sets last (ofSetting key former current)

theorem toList_setting (key value : String) :
    (key ++ " = \"" ++ value ++ "\"").toList = assignment key.toList value.toList := by
  simp only [String.toList_append]
  rfl

theorem Sets.spares {last otherLast : Char} {substitution other : Substitution}
    (sets : Sets last substitution) (otherSets : Sets otherLast other)
    (different : last ≠ otherLast) : substitution.Spares other := by
  cases sets with
  | intro ends inertKey inertFormer inertCurrent =>
  cases otherSets with
  | intro otherEnds otherInertKey otherInertFormer _ =>
      obtain ⟨front, ends⟩ := List.getLast?_eq_some_iff.mp ends
      obtain ⟨otherFront, otherEnds⟩ := List.getLast?_eq_some_iff.mp otherEnds
      rw [ends] at inertKey
      rw [otherEnds] at otherInertKey
      constructor
      · rw [ofSetting, ofSetting, toList_setting, toList_setting, ends, otherEnds]
        exact apart_assignment otherInertKey otherInertFormer inertKey inertFormer different.symm
      · rw [ofSetting, ofSetting, toList_setting, toList_setting, ends, otherEnds]
        exact apart_assignment otherInertKey otherInertFormer inertKey inertCurrent different.symm

/-- The line that marks the place of the neighbours is apart from every assignment. -/
theorem apart_mark {key value : List Char} (inertKey : Text.Inert key) (inert : Text.Inert value) :
    Apart "# [discovery_destinations]\n".toList (assignment key value) := by
  have mark : "# [discovery_destinations]\n".toList =
      "# [discovery_destinations]".toList ++ ['\n'] := rfl
  rw [mark]
  refine apart_of_getLast ?_ (by decide)
  simp only [List.mem_append, List.mem_cons, List.not_mem_nil, or_false, not_or]
  exact ⟨⟨⟨inertKey.single, by decide⟩, inert.single⟩, by decide⟩

theorem Sets.spares_mark {last : Char} {substitution : Substitution}
    (sets : Sets last substitution) (lines : String) :
    substitution.Spares ⟨"# [discovery_destinations]\n", lines⟩ := by
  cases sets with
  | intro _ inertKey inertFormer inertCurrent =>
      constructor
      · rw [ofSetting, toList_setting]
        exact apart_mark inertKey inertFormer
      · rw [ofSetting, toList_setting]
        exact apart_mark inertKey inertCurrent

end Substitution

namespace DaemonSettings

/-- What is to become of a template: four keys get the chosen values, and the line that marks the
place of the neighbours makes way for a section with their addresses, numbered in order. -/
def intended (settings : DaemonSettings) (addresses : List String) : List Substitution :=
  [.ofSetting "cla.0.id" "mtcp" settings.convergenceLayer,
    .ofSetting "strategy" "epidemic" settings.routingStrategy,
    .ofSetting "interval" "2s" (toString settings.discoveryInterval ++ "ms"),
    .ofSetting "janitor" "10s" (toString settings.janitorInterval ++ "ms"),
    ⟨"# [discovery_destinations]\n", "[discovery_destinations]\n" ++
      String.join (addresses.mapIdx fun index address =>
        s!"target.{index}.destination = \"{address}\"\n")⟩]

/-- The texts among the settings can stand between quotes. -/
structure Inert (settings : DaemonSettings) : Prop where
  convergenceLayer : Text.Inert settings.convergenceLayer.toList
  routingStrategy : Text.Inert settings.routingStrategy.toList

/-- These are the substitutions that a configurator makes. -/
theorem substitutions_eq_intended (settings : DaemonSettings) (addresses : List String) :
    settings.substitutions ++ [.ofNeighbours addresses] = settings.intended addresses := by
  have milliseconds (key : String) (value : UInt64) :
      key ++ (toString value ++ "ms") ++ "\"" = key ++ toString value ++ "ms\"" := by
    simp only [String.append_assoc]
    rfl
  have neighbours : Substitution.ofNeighbours addresses = ⟨"# [discovery_destinations]\n",
      "[discovery_destinations]\n" ++ String.join (addresses.mapIdx fun index address =>
        s!"target.{index}.destination = \"{address}\"\n")⟩ := by
    rw [Substitution.ofNeighbours, Substitution.neighbourLines, String.join_cons,
      List.mapIdx_eq_zipIdx_map]
  rw [neighbours]
  simp only [intended, Substitution.ofSetting, milliseconds]
  rfl

theorem inert_milliseconds (value : UInt64) :
    Text.Inert (toString value ++ "ms").toList := by
  have digits : (toString value).toList = Nat.toDigits 10 value.toNat := Nat.toList_repr
  have plain : ∀ character ∈ (toString value ++ "ms").toList,
      character.isDigit = true ∨ character = 'm' ∨ character = 's' := by
    intro character member
    rw [String.toList_append, List.mem_append, digits] at member
    rcases member with digit | unit
    · exact Or.inl (Nat.isDigit_of_mem_toDigits (by decide) (by decide) digit)
    · exact Or.inr (by simpa using unit)
  exact ⟨fun member => absurd (plain _ member) (by decide),
    fun member => absurd (plain _ member) (by decide),
    fun member => absurd (plain _ member) (by decide)⟩

/-- Each of the substitutions spares the later ones. -/
theorem pairwise_spares_intended {settings : DaemonSettings} (inert : settings.Inert)
    (addresses : List String) :
    (settings.intended addresses).Pairwise Substitution.Spares := by
  have layer : Substitution.Sets 'd' (.ofSetting "cla.0.id" "mtcp" settings.convergenceLayer) :=
    .intro (by decide) (by decide) (by decide) inert.convergenceLayer
  have strategy : Substitution.Sets 'y'
      (.ofSetting "strategy" "epidemic" settings.routingStrategy) :=
    .intro (by decide) (by decide) (by decide) inert.routingStrategy
  have interval : Substitution.Sets 'l'
      (.ofSetting "interval" "2s" (toString settings.discoveryInterval ++ "ms")) :=
    .intro (by decide) (by decide) (by decide) (inert_milliseconds _)
  have janitor : Substitution.Sets 'r'
      (.ofSetting "janitor" "10s" (toString settings.janitorInterval ++ "ms")) :=
    .intro (by decide) (by decide) (by decide) (inert_milliseconds _)
  simp only [intended, List.pairwise_cons, List.forall_mem_cons, List.not_mem_nil,
    false_imp_iff, implies_true, and_true, List.Pairwise.nil]
  exact ⟨⟨layer.spares strategy (by decide), layer.spares interval (by decide),
      layer.spares janitor (by decide), layer.spares_mark _⟩,
    ⟨strategy.spares interval (by decide), strategy.spares janitor (by decide),
      strategy.spares_mark _⟩,
    ⟨interval.spares janitor (by decide), interval.spares_mark _⟩,
    janitor.spares_mark _⟩

theorem visible_intended (settings : DaemonSettings) (addresses : List String) :
    ∀ substitution ∈ settings.intended addresses, substitution.pattern.toList ≠ [] := by
  have setting (key former current : String) :
      (Substitution.ofSetting key former current).pattern.toList ≠ [] := by
    rw [Substitution.ofSetting, Substitution.toList_setting]
    simp [Text.assignment]
  have mark : "# [discovery_destinations]\n".toList ≠ [] := by decide
  simp only [intended, List.forall_mem_cons, List.not_mem_nil, false_imp_iff, implies_true,
    and_true]
  exact ⟨setting _ _ _, setting _ _ _, setting _ _ _, setting _ _ _, mark⟩

end DaemonSettings

/-! ## The errands of a configurator -/

/-- What a configurator is told to do. -/
inductive Errand where
  | collect (node : NodeId) (address : String)
  | configure (node : NodeId) (template : String)
  deriving DecidableEq, Repr

/-- The address that an errand brings for a node. -/
def Errand.address? (node : NodeId) : Errand → Option String
  | collect other address => if other = node then some address else none
  | configure _ _ => none

namespace Configurator

def run (configurator : Configurator) : Errand → Configurator
  | .collect node address => (configurator.collect node address).2
  | .configure node template => (configurator.configure node template).2

/-- A new configurator after some errands, whatever came of them. -/
def after (settings : DaemonSettings) (errands : List Errand) : Configurator :=
  errands.foldl run { settings }

variable {configurator : Configurator} {node : NodeId}

/-! ## The part of a configurator that belongs to one node -/

theorem settings_run (configurator : Configurator) (errand : Errand) :
    (configurator.run errand).settings = configurator.settings := by
  cases errand with
  | collect other address =>
      rw [run, collect]
      split <;> rfl
  | configure other template =>
      rw [run, configure]
      split <;> rfl

/-- A node is configured from the first errand on that configures it. -/
theorem contains_configured_run (configurator : Configurator) (errand : Errand) (node : NodeId) :
    (configurator.run errand).configured.contains node = true ↔
      configurator.configured.contains node = true ∨
        ∃ template, errand = .configure node template := by
  cases errand with
  | collect other address =>
      rw [run, collect]
      split <;> simp
  | configure other template =>
      rw [run, configure]
      split
      · rename_i configured
        refine (or_iff_left_of_imp ?_).symm
        rintro ⟨_, same⟩
        cases same
        exact configured
      · rw [Table.contains_insert, or_comm]
        refine or_congr_right ⟨?_, ?_⟩
        · rintro rfl
          exact ⟨template, rfl⟩
        · rintro ⟨_, same⟩
          cases same
          rfl

/-- The addresses for a node grow until it is configured. -/
theorem addresses_run (configurator : Configurator) (errand : Errand) (node : NodeId) :
    (configurator.run errand).addresses node =
      if configurator.configured.contains node then configurator.addresses node
      else configurator.addresses node ++ (errand.address? node).toList := by
  cases errand with
  | collect other address =>
      rw [run, collect, Errand.address?]
      by_cases same : other = node
      · subst same
        by_cases configured : configurator.configured.contains other = true
        · rw [if_pos configured, if_pos configured]
        · rw [if_neg configured, if_neg configured, if_pos rfl]
          exact congrArg (Option.getD · []) (Table.get?_insert_self _ _ _)
      · rw [if_neg same, Option.toList_none, List.append_nil, ite_self]
        split
        · rfl
        · exact congrArg (Option.getD · []) (Table.get?_insert_of_ne _ _ (Ne.symm same))
  | configure other template =>
      rw [run, configure, Errand.address?, Option.toList_none, List.append_nil, ite_self]
      split <;> rfl

/-- Nothing but the addresses for a node comes to its part of a configurator before the node is
configured. -/
theorem run_of_pending (pending : configurator.configured.get? node = none) (errand : Errand)
    (notYet : ∀ template, errand ≠ .configure node template) :
    (configurator.run errand).configured.get? node = none ∧
      (configurator.run errand).settings = configurator.settings ∧
      (configurator.run errand).addresses node =
        configurator.addresses node ++ (errand.address? node).toList := by
  have unconfigured : ¬ configurator.configured.contains node = true := by
    rw [Table.contains, pending]
    decide
  refine ⟨?_, settings_run configurator errand, ?_⟩
  · rw [← Option.not_isSome_iff_eq_none]
    intro configured
    rcases (contains_configured_run configurator errand node).mp configured with
      before | ⟨template, same⟩
    · exact unconfigured before
    · exact notYet template same
  · rw [addresses_run, if_neg unconfigured]

theorem foldl_run_of_pending (errands : List Errand) (configurator : Configurator)
    (notYet : ∀ template, .configure node template ∉ errands)
    (pending : configurator.configured.get? node = none) :
    (errands.foldl run configurator).configured.get? node = none ∧
      (errands.foldl run configurator).settings = configurator.settings ∧
      (errands.foldl run configurator).addresses node =
        configurator.addresses node ++ errands.filterMap (Errand.address? node) := by
  induction errands generalizing configurator with
  | nil => exact ⟨pending, rfl, (List.append_nil _).symm⟩
  | cons errand rest inductionHypothesis =>
      obtain ⟨stillPending, settings, addresses⟩ := run_of_pending pending errand
        fun template same => notYet template (same ▸ List.mem_cons_self)
      obtain ⟨finallyPending, finalSettings, finalAddresses⟩ := inductionHypothesis _
        (fun template member => notYet template (List.mem_cons_of_mem _ member)) stillPending
      refine ⟨finallyPending, finalSettings.trans settings, ?_⟩
      rw [List.foldl_cons, finalAddresses, addresses, List.append_assoc]
      cases given : errand.address? node with
      | none => rw [List.filterMap_cons_none given]; rfl
      | some address => rw [List.filterMap_cons_some given]; rfl

/-- Whatever came before, the first configuration of a node is its template, rewritten at once and
nothing else: the four settings and the addresses that were collected for the node, in order. -/
theorem rewrittenAtOnce_configure {settings : DaemonSettings} (inert : settings.Inert)
    {errands : List Errand} (notYet : ∀ template, .configure node template ∉ errands)
    (template : String) :
    ∃ text, ((after settings errands).configure node template).1 = .ok text ∧
      ∀ other, RewrittenAtOnce (settings.intended (errands.filterMap (Errand.address? node)))
        template other ↔ other = text := by
  obtain ⟨pending, sameSettings, addresses⟩ :=
    foldl_run_of_pending errands { settings } notYet rfl
  have unconfigured : ¬ (after settings errands).configured.contains node = true := by
    rw [Table.contains, after, pending]
    decide
  refine ⟨(after settings errands).fill node template, ?_, ?_⟩
  · rw [configure, if_neg unconfigured]
  · intro other
    have intended : (after settings errands).substitutions node =
        settings.intended (errands.filterMap (Errand.address? node)) := by
      rw [← DaemonSettings.substitutions_eq_intended, substitutions, after, sameSettings,
        addresses]
      rfl
    rw [fill, intended]
    exact rewrittenAtOnce_iff_eq_foldl (settings.visible_intended _)
      (DaemonSettings.pairwise_spares_intended inert _) template other

/-- The addresses of two neighbours, one before and one after another node is configured. -/
theorem rewrittenAtOnce_configure_twoNeighbours :
    let errands := [Errand.collect 1 "10.0.0.21", .configure 2 "", .collect 1 "10.0.3.20"]
    let template := "interval = \"2s\"\n# [discovery_destinations]\n"
    let text := "interval = \"500ms\"\n[discovery_destinations]\n" ++
      "target.0.destination = \"10.0.0.21\"\ntarget.1.destination = \"10.0.3.20\"\n"
    ({} : DaemonSettings).Inert ∧ (∀ template, .configure 1 template ∉ errands) ∧
      ((after {} errands).configure 1 template).1 = .ok text ∧
      ∀ other, RewrittenAtOnce (({} : DaemonSettings).intended ["10.0.0.21", "10.0.3.20"])
        template other ↔ other = text := by
  intro errands template text
  have inert : ({} : DaemonSettings).Inert := ⟨by decide, by decide⟩
  have notYet : ∀ template, .configure 1 template ∉ errands := by simp [errands]
  have pinned : ((after {} errands).configure 1 template).1 = .ok text := by decide +kernel
  obtain ⟨filled, configured, only⟩ := rewrittenAtOnce_configure inert notYet template
  obtain rfl : filled = text := Except.ok.inj (configured.symm.trans pinned)
  exact ⟨inert, notYet, configured, only⟩

end Configurator

end ContactReplay
