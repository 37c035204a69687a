import ContactReplay.Proofs.Daemon.Filling

/-!
# Each node on its own

A configurator does errands for all nodes, and what it has for one of them depends on the errands
for this node alone: its addresses, which grow until the node is configured, and whether it is.

* `SameFor` says that two configurators have the same for a node.  They answer the same errand for
  the node in the same way (`SameFor.outcome_eq`) and still have the same afterwards
  (`SameFor.run`), and an errand for another node changes nothing of it (`sameFor_run`).
* So the errands for other nodes can be left out of a history, however they are interleaved
  (`SameFor.history_filter`).

`ServesEach` says what follows from a history for the next errand, and `Announces` where the
addresses of a node stand in its configuration.
-/

namespace ContactReplay

open Text

/-! ## Addresses in a configuration -/

/-- A configuration has some addresses in the place of the mark, one in a line and numbered through,
in a text with the settings in it; without a mark it is this text as it is. -/
structure Announces (addresses : List String) (filled text : String) : Prop where
  marked : ∀ before after,
    filled.toList = before ++ "# [discovery_destinations]\n".toList ++ after →
    FirstAfter "# [discovery_destinations]\n".toList filled.toList before →
    text.toList = before ++ "[discovery_destinations]\n".toList ++
      (addresses.zipIdx.flatMap fun (address, index) =>
        s!"target.{index}.destination = \"{address}\"\n".toList) ++ after
  unmarked : ¬ "# [discovery_destinations]\n".toList <:+: filled.toList → text = filled

namespace Substitution

theorem toList_neighbourLines (addresses : List String) :
    (neighbourLines addresses).toList = "[discovery_destinations]\n".toList ++
      addresses.zipIdx.flatMap fun (address, index) =>
        s!"target.{index}.destination = \"{address}\"\n".toList := by
  rw [neighbourLines, String.toList_join, List.flatMap_cons, List.flatMap_map]

theorem announces_carryOut (addresses : List String) (filled : String) :
    Announces addresses filled ((ofNeighbours addresses).carryOut filled) := by
  constructor
  case marked =>
    intro before after same here
    obtain ⟨rest, found⟩ := exists_findFirst_iff.mpr here
    obtain rfl : after = rest :=
      List.append_cancel_left (same.symm.trans (eq_append_of_findFirst found))
    rw [toList_carryOut, ofNeighbours, found]
    dsimp only
    rw [toList_neighbourLines]
    simp only [List.append_assoc]
  case unmarked =>
    intro absent
    rw [carryOut, replaceFirst, ofNeighbours, findFirst_eq_none_iff.mpr absent]

end Substitution

/-! ## Histories -/

/-- The node that an errand is for. -/
def Errand.node : Errand → NodeId
  | collect node _ => node
  | configure node _ => node

namespace Configurator

/-- What comes of an errand, with the configuration if it makes one. -/
def outcome (configurator : Configurator) : Errand → Except Error (Option String)
  | .collect node address => (configurator.collect node address).1.map fun _ => none
  | .configure node template => (configurator.configure node template).1.map some

/-- What is seen of an errand. -/
structure Account where
  errand : Errand
  outcome : Except Error (Option String)
  /-- The addresses for the node of the errand when it is done. -/
  addresses : List String

/-- What is seen of some errands, one after the other. -/
def history (configurator : Configurator) : List Errand → List Account
  | [] => []
  | errand :: rest =>
      ⟨errand, configurator.outcome errand, (configurator.run errand).addresses errand.node⟩ ::
        (configurator.run errand).history rest

/-- Two configurators have the same for a node. -/
structure SameFor (node : NodeId) (left right : Configurator) : Prop where
  settings : left.settings = right.settings
  addresses : left.addresses node = right.addresses node
  configured : left.configured.contains node = right.configured.contains node

section SameFor

variable {left right configurator : Configurator} {node : NodeId}

theorem SameFor.run (same : SameFor node left right) (errand : Errand) :
    SameFor node (left.run errand) (right.run errand) where
  settings := by rw [settings_run, settings_run, same.settings]
  addresses := by rw [addresses_run, addresses_run, same.addresses, same.configured]
  configured := by
    rw [Bool.eq_iff_iff, contains_configured_run, contains_configured_run, same.configured]

/-- An errand for another node changes nothing for a node. -/
theorem sameFor_run (configurator : Configurator) {errand : Errand}
    (different : errand.node ≠ node) :
    SameFor node (configurator.run errand) configurator where
  settings := settings_run configurator errand
  addresses := by
    have brings : errand.address? node = none := by
      cases errand with
      | collect other address => exact if_neg different
      | configure other template => rfl
    rw [addresses_run, brings, Option.toList_none, List.append_nil, ite_self]
  configured := by
    rw [Bool.eq_iff_iff, contains_configured_run]
    refine or_iff_left ?_
    rintro ⟨template, rfl⟩
    exact different rfl

theorem SameFor.outcome_eq (same : SameFor node left right) {errand : Errand}
    (own : errand.node = node) : left.outcome errand = right.outcome errand := by
  subst own
  cases errand with
  | collect node address =>
      have configured := same.configured
      simp only [Errand.node] at configured
      rw [outcome, outcome, collect, collect, configured]
      split <;> rfl
  | configure node template =>
      have configured := same.configured
      have addresses := same.addresses
      simp only [Errand.node] at configured addresses
      rw [outcome, outcome, configure, configure, configured, fill, fill, substitutions,
        substitutions, same.settings, addresses]
      split <;> rfl

theorem SameFor.trans {middle : Configurator} (first : SameFor node left middle)
    (second : SameFor node middle right) : SameFor node left right where
  settings := first.settings.trans second.settings
  addresses := first.addresses.trans second.addresses
  configured := first.configured.trans second.configured

/-- The errands for other nodes can be left out. -/
theorem SameFor.history_filter (same : SameFor node left right) (errands : List Errand) :
    (left.history errands).filter (fun account => account.errand.node = node) =
        right.history (errands.filter fun errand => errand.node = node) ∧
      SameFor node (errands.foldl Configurator.run left)
        ((errands.filter fun errand => errand.node = node).foldl Configurator.run right) := by
  induction errands generalizing left right with
  | nil => exact ⟨rfl, same⟩
  | cons errand rest inductionHypothesis =>
      by_cases own : errand.node = node
      · obtain ⟨histories, inTheEnd⟩ := inductionHypothesis (same.run errand)
        have addresses := (same.run errand).addresses
        rw [history, List.filter_cons_of_pos (by simpa using own),
          List.filter_cons_of_pos (by simpa using own), history, histories, same.outcome_eq own,
          own, addresses]
        exact ⟨rfl, inTheEnd⟩
      · -- Only the left configurator does this errand, and the two stay the same for the node.
        obtain ⟨histories, inTheEnd⟩ :=
          inductionHypothesis ((sameFor_run left own).trans same)
        rw [history, List.filter_cons_of_neg (by simpa using own),
          List.filter_cons_of_neg (by simpa using own)]
        exact ⟨histories, inTheEnd⟩

end SameFor

/-! ## The next errand -/

section Next

variable {configurator : Configurator} {node : NodeId}

theorem contains_configured_foldl (errands : List Errand) (configurator : Configurator) :
    (errands.foldl run configurator).configured.contains node = true ↔
      configurator.configured.contains node = true ∨
        ∃ template, .configure node template ∈ errands := by
  induction errands generalizing configurator with
  | nil => simp
  | cons errand rest inductionHypothesis =>
      rw [List.foldl_cons, inductionHypothesis, contains_configured_run, or_assoc]
      simp only [List.mem_cons, exists_or, eq_comm]

theorem exists_collect_error_iff (address : String) :
    (∃ error, (configurator.collect node address).1 = .error error) ↔
      configurator.configured.contains node = true := by
  rw [collect]
  split <;> simp_all

theorem exists_configure_error_iff (template : String) :
    (∃ error, (configurator.configure node template).1 = .error error) ↔
      configurator.configured.contains node = true := by
  rw [configure]
  split <;> simp_all

/-- A refused errand changes nothing. -/
theorem run_of_outcome_error {errand : Errand} {error : Error}
    (refused : configurator.outcome errand = .error error) :
    configurator.run errand = configurator := by
  cases errand with
  | collect node address =>
      by_cases configured : configurator.configured.contains node = true
      · rw [run, collect, if_pos configured]
      · rw [outcome, collect, if_neg configured] at refused
        cases refused
  | configure node template =>
      by_cases configured : configurator.configured.contains node = true
      · rw [run, configure, if_pos configured]
      · rw [outcome, configure, if_neg configured] at refused
        cases refused

theorem announces_of_configure {template text : String}
    (configured : (configurator.configure node template).1 = .ok text) :
    Announces (configurator.addresses node)
      (configurator.settings.substitutions.foldl
        (fun text substitution => substitution.carryOut text) template) text := by
  have unconfigured : ¬ configurator.configured.contains node = true := by
    rw [← exists_configure_error_iff template, configured]
    exact nofun
  rw [configure, if_neg unconfigured] at configured
  have filled : configurator.fill node template = text := Except.ok.inj configured
  rw [← filled, fill, substitutions, List.foldl_append, List.foldl_cons, List.foldl_nil]
  exact Substitution.announces_carryOut _ _

end Next

/-- A configurator that has done some errands treats each node as if it were the only one. -/
structure ServesEach (settings : DaemonSettings) (errands : List Errand) : Prop where
  /-- What is seen of the errands for a node, and the addresses that the node has in the end, are
  the same without the errands for other nodes. -/
  separate : ∀ node,
    ((after settings []).history errands).filter (fun account => account.errand.node = node) =
        (after settings []).history (errands.filter fun errand => errand.node = node) ∧
      (after settings errands).addresses node =
        (after settings (errands.filter fun errand => errand.node = node)).addresses node
  /-- An address is refused exactly if the node was to be configured before. -/
  late_iff : ∀ node address,
    (∃ error, ((after settings errands).collect node address).1 = .error error) ↔
      ∃ template, .configure node template ∈ errands
  /-- A node is not configured exactly if it was to be configured before. -/
  repeated_iff : ∀ node template,
    (∃ error, ((after settings errands).configure node template).1 = .error error) ↔
      ∃ former, .configure node former ∈ errands
  /-- A refused errand changes nothing, for any node. -/
  refused : ∀ errand error, (after settings errands).outcome errand = .error error →
    (after settings errands).run errand = after settings errands
  /-- A configuration has the addresses that were collected for the node before, in order. -/
  announced : ∀ node template text,
    ((after settings errands).configure node template).1 = .ok text →
      Announces (errands.filterMap (Errand.address? node))
        (settings.substitutions.foldl
          (fun text substitution => substitution.carryOut text) template) text

/-- Whatever errands a configurator does for whatever nodes, it serves each node on its own. -/
theorem after_servesEach (settings : DaemonSettings) (errands : List Errand) :
    ServesEach settings errands := by
  have configured_iff (node : NodeId) :
      (after settings errands).configured.contains node = true ↔
        ∃ template, .configure node template ∈ errands :=
    (contains_configured_foldl errands { settings }).trans (or_iff_right Bool.false_ne_true)
  constructor
  case separate =>
    intro node
    have same : SameFor node (after settings []) (after settings []) := ⟨rfl, rfl, rfl⟩
    obtain ⟨histories, inTheEnd⟩ := same.history_filter errands
    exact ⟨histories, inTheEnd.addresses⟩
  case late_iff =>
    exact fun node address => (exists_collect_error_iff address).trans (configured_iff node)
  case repeated_iff =>
    exact fun node template => (exists_configure_error_iff template).trans (configured_iff node)
  case refused => exact fun _ _ => run_of_outcome_error
  case announced =>
    intro node template text configured
    have notYet : ∀ former, .configure node former ∉ errands := by
      intro former member
      obtain ⟨error, failed⟩ :=
        (exists_configure_error_iff template).mpr ((configured_iff node).mpr ⟨former, member⟩)
      rw [failed] at configured
      cases configured
    obtain ⟨-, sameSettings, addresses⟩ := foldl_run_of_pending errands { settings } notYet rfl
    have announces := announces_of_configure configured
    rw [after, sameSettings, addresses] at announces
    exact announces

/-- The same address twice, another node in between, and one address that comes too late. -/
example : let errands := [Errand.collect 1 "10.0.0.21", .collect 2 "10.0.0.20",
      .configure 2 "", .collect 1 "10.0.0.21", .collect 2 "10.0.1.21"]
    (after {} errands).addresses 1 = ["10.0.0.21", "10.0.0.21"] ∧
      (after {} errands).addresses 2 = ["10.0.0.20"] := by
  decide +kernel

end Configurator

end ContactReplay
