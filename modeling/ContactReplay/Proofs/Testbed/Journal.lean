import ContactReplay.Proofs.Json.RoundTrip
import ContactReplay.Testbed.Journal
import Mathlib

/-!
# Journals are read back

A journal is read back as the array of its lines (`read?_journalText`), and no two logs have the
same journal (`eq_of_journalText`), because lines of a log that differ are told by different objects
(`Call.eq_of_toJson`).  Both are stated for logs in which every link carries everything or nothing
(`Call.Switches`), as in the log of any run.
-/

namespace ContactReplay

/-! ## Addresses -/

/-- Octets are told by their texts with a mark between them that stands in none of the texts. -/
theorem octets_eq_of_intercalate {count : Nat} (mark : Char) {render : UInt8 → String}
    (injective : Function.Injective render) (whole : ∀ octet, mark ∉ (render octet).toList)
    {octets others : Vector UInt8 (count + 1)}
    (same : (String.singleton mark).intercalate (octets.toList.map render) =
      (String.singleton mark).intercalate (others.toList.map render)) : octets = others := by
  have cut : ∀ octets : Vector UInt8 (count + 1),
      List.splitOn mark ((String.singleton mark).intercalate (octets.toList.map render)).toList =
        octets.toList.map fun octet => (render octet).toList := by
    intro octets
    rw [String.toList_intercalate, List.map_map, String.toList_singleton, List.splitOn_intercalate]
    · rfl
    · intro text member
      obtain ⟨octet, -, rfl⟩ := List.mem_map.mp member
      exact whole octet
    · intro none
      have long := congrArg List.length none
      simp at long
  have texts := congrArg (fun text => List.splitOn mark text.toList) same
  rw [cut, cut, List.map_inj_right fun _ _ alike => injective (String.toList_injective alike)]
    at texts
  exact Vector.toList_inj.mp texts

theorem hexOctet_injective : Function.Injective hexOctet := by
  intro octet other same
  have bounded := octet.toNat_lt
  have otherBounded := other.toNat_lt
  have digits := congrArg String.toList same
  simp only [hexOctet, String.toList_ofList, List.cons.injEq, and_true] at digits
  have read : ∀ digit < 16, ∀ another < 16, Nat.digitChar digit = Nat.digitChar another →
      digit = another := by decide
  have high := read _ (by omega) _ (by omega) digits.1
  have low := read _ (by omega) _ (by omega) digits.2
  exact UInt8.toNat_inj.mp (by omega)

theorem colon_not_mem_hexOctet (octet : UInt8) : ':' ∉ (hexOctet octet).toList := by
  have bounded := octet.toNat_lt
  have differs : ∀ digit < 16, ':' ≠ Nat.digitChar digit := by decide
  simp only [hexOctet, String.toList_ofList, List.mem_cons, List.not_mem_nil, or_false, not_or]
  exact ⟨differs _ (by omega), differs _ (by omega)⟩

theorem dot_not_mem_octet (octet : UInt8) : '.' ∉ (toString octet).toList := by
  have digits : (toString octet).toList = Nat.toDigits 10 octet.toNat := Nat.toList_repr
  intro member
  rw [digits] at member
  have digit := Nat.isDigit_of_mem_toDigits (by decide) (by decide) member
  cases digit

theorem MacAddress.toString_injective : Function.Injective (toString : MacAddress → String) := by
  rintro ⟨octets⟩ ⟨others⟩ same
  exact congrArg mk
    (octets_eq_of_intercalate ':' hexOctet_injective colon_not_mem_hexOctet same)

theorem Ipv4Address.toString_injective : Function.Injective (toString : Ipv4Address → String) := by
  rintro ⟨octets⟩ ⟨others⟩ same
  have injective : Function.Injective (toString : UInt8 → String) :=
    fun _ _ same => UInt8.toNat_inj.mp (Nat.repr_injective same)
  exact congrArg mk (octets_eq_of_intercalate '.' injective dot_not_mem_octet same)

/-! ## Objects -/

namespace Json

@[simp]
theorem ofString_inj {value other : String} : ofString value = ofString other ↔ value = other := by
  simp [ofString]

@[simp]
theorem ofNat_inj {value other : Nat} : ofNat value = ofNat other ↔ value = other :=
  ⟨fun same => Nat.repr_injective (Json.number.inj same), congrArg ofNat⟩

@[simp]
theorem ofInt_inj {value other : Int} : ofInt value = ofInt other ↔ value = other :=
  ⟨fun same => Int.repr_injective (Json.number.inj same), congrArg ofInt⟩

@[simp]
theorem ofWord32_inj {value other : UInt32} : ofWord32 value = ofWord32 other ↔ value = other := by
  simp [ofWord32, UInt32.toNat_inj]

@[simp]
theorem ofFields_inj {fields others : List (String × Json)} :
    ofFields fields = ofFields others ↔ fields = others := by
  rw [ofFields, ofFields, Json.object.injEq]
  refine List.map_inj_right ?_
  rintro ⟨name, value⟩ ⟨other, otherValue⟩ same
  simpa using same

end Json

@[simp]
theorem Position.toJson_inj {position other : Position} :
    position.toJson = other.toJson ↔ position = other := by
  cases position
  cases other
  simp [toJson, Int32.toInt_inj]

@[simp]
theorem Interface.toJson_inj {interface other : Interface} :
    interface.toJson = other.toJson ↔ interface = other := by
  cases interface
  cases other
  simp [toJson, MacAddress.toString_injective.eq_iff, Ipv4Address.toString_injective.eq_iff,
    UInt8.toNat_inj]

@[simp]
theorem NodeDescription.toJson_inj {node other : NodeDescription} :
    node.toJson = other.toJson ↔ node = other := by
  cases node
  cases other
  simp [toJson]

theorem SessionMode.word_injective : Function.Injective SessionMode.word := by
  intro mode other same
  cases mode <;> cases other <;> first | rfl | exact absurd same (by decide)

theorem Method.name_injective : Function.Injective Method.name := by
  intro method other same
  cases method <;> cases other <;> first | rfl | exact absurd same (by decide)

/-! ## Lines -/

section Losses

variable {ofLoss : Loss → Json}

theorem LinkDescription.eq_of_toJson {link other : LinkDescription}
    (losses : ofLoss link.loss = ofLoss other.loss → link.loss = other.loss)
    (same : link.toJson ofLoss = other.toJson ofLoss) : link = other := by
  cases link
  cases other
  simp only [toJson, Json.ofFields_inj, Json.ofWord32_inj, Interface.toJson_inj, List.cons.injEq,
    Prod.mk.injEq, true_and, and_true] at same
  obtain ⟨rfl, rfl, rfl, rfl, lossSame⟩ := same
  obtain rfl := losses lossSame
  rfl

theorem LinkAdjustment.eq_of_toJson {adjustment other : LinkAdjustment}
    (losses : ofLoss adjustment.loss = ofLoss other.loss → adjustment.loss = other.loss)
    (same : adjustment.toJson ofLoss = other.toJson ofLoss) : adjustment = other := by
  cases adjustment
  cases other
  simp only [toJson, Json.ofFields_inj, Json.ofWord32_inj, List.cons.injEq, Prod.mk.injEq,
    true_and, and_true] at same
  obtain ⟨rfl, rfl, rfl, rfl, lossSame⟩ := same
  obtain rfl := losses lossSame
  rfl

namespace Call

/-- The loss of a link that a line tells. -/
def loss? : Call → Option Loss
  | .addLink _ link => some link.loss
  | .adjustLink _ adjustment => some adjustment.loss
  | _ => none

/-- Lines that are told by the same object are the same, if the losses that they tell are. -/
theorem eq_of_toJson {call other : Call}
    (losses : ∀ loss ∈ call.loss?, ∀ another ∈ other.loss?,
      ofLoss loss = ofLoss another → loss = another)
    (same : call.toJson ofLoss = other.toJson ofLoss) : call = other := by
  simp only [toJson, Json.ofFields_inj, Json.ofString_inj, Json.ofWord32_inj, List.cons_append,
    List.nil_append, List.cons.injEq, Prod.mk.injEq, true_and] at same
  obtain ⟨sameName, sameSession, sameDetails⟩ := same
  have sameMethod := Method.name_injective sameName
  cases call <;> cases other <;> try cases sameMethod
  all_goals
    simp only [session] at sameSession
    subst sameSession
  case createSession => rfl
  case teardown => rfl
  case setMode mode otherMode =>
    have words : mode.word = otherMode.word := by simpa [details] using sameDetails
    rw [SessionMode.word_injective words]
  case setOptions options otherOptions =>
    have entries : options.entries = otherOptions.entries := by
      simp only [details, List.cons.injEq, Prod.mk.injEq, true_and, and_true, Json.ofFields_inj]
        at sameDetails
      refine (List.map_inj_right ?_).mp sameDetails
      rintro ⟨key, value⟩ ⟨other, otherValue⟩ same
      simpa using same
    cases options
    cases otherOptions
    cases entries
    rfl
  case addNode node otherNode =>
    have nodes : node = otherNode := by simpa [details] using sameDetails
    rw [nodes]
  case addLink link otherLink =>
    have links : link.toJson ofLoss = otherLink.toJson ofLoss := by
      simpa [details] using sameDetails
    rw [LinkDescription.eq_of_toJson (losses _ rfl _ rfl) links]
  case adjustLink adjustment otherAdjustment =>
    have adjustments : adjustment.toJson ofLoss = otherAdjustment.toJson ofLoss := by
      simpa [details] using sameDetails
    rw [LinkAdjustment.eq_of_toJson (losses _ rfl _ rfl) adjustments]
  case getFile node name otherNode otherName =>
    cases name
    cases otherName
    simp only [details, List.cons.injEq, Prod.mk.injEq, true_and, and_true, Json.ofWord32_inj,
      Json.ofString_inj] at sameDetails
    obtain ⟨rfl, rfl, rfl⟩ := sameDetails
    rfl
  case setFile node name bytes otherNode otherName otherBytes =>
    cases name
    cases otherName
    simp only [details, List.cons.injEq, Prod.mk.injEq, true_and, and_true, Json.ofWord32_inj,
      Json.ofString_inj, Json.ofNat_inj] at sameDetails
    obtain ⟨rfl, rfl, rfl, rfl⟩ := sameDetails
    rfl

end Call

end Losses

/-! ## Links that carry everything or nothing -/

theorem Loss.text_up : Loss.up.text = "0.0" := by decide +kernel

theorem Loss.text_down : Loss.down.text = "100.0" := by decide +kernel

/-- A link with this loss carries everything or nothing. -/
def Loss.Switches (loss : Loss) : Prop := loss = Loss.up ∨ loss = Loss.down

theorem Loss.Switches.legible_toJson {loss : Loss} (switches : loss.Switches) :
    loss.toJson.Legible := by
  rcases switches with rfl | rfl
  · rw [toJson, text_up]
    exact .number (by decide) rfl
  · rw [toJson, text_down]
    exact .number (by decide) rfl

theorem Loss.Switches.eq_of_toJson {loss other : Loss} (switches : loss.Switches)
    (otherSwitches : other.Switches) (same : loss.toJson = other.toJson) : loss = other := by
  have texts := Json.number.inj same
  rcases switches with rfl | rfl <;> rcases otherSwitches with rfl | rfl
  · rfl
  · rw [text_up, text_down] at texts
    exact absurd texts (by decide)
  · rw [text_up, text_down] at texts
    exact absurd texts (by decide)
  · rfl

namespace Call

/-- A link that a line tells of carries everything or nothing. -/
def Switches (call : Call) : Prop := ∀ loss ∈ call.loss?, loss.Switches

theorem Switches.legible_toJson {call : Call} (switches : call.Switches) :
    (call.toJson Loss.toJson).Legible := by
  have losses : ∀ loss ∈ call.loss?, loss.toJson.Legible :=
    fun loss told => (switches loss told).legible_toJson
  cases call <;>
    simp only [toJson, details, Json.ofWord32, NodeDescription.toJson, Position.toJson,
      LinkDescription.toJson, LinkAdjustment.toJson, Interface.toJson, Json.legible_ofFields_iff,
      Json.legible_ofNat, Json.legible_ofInt, Json.legible_ofString, List.cons_append,
      List.nil_append, List.forall_mem_cons, List.not_mem_nil, false_imp_iff, implies_true,
      and_true, true_and]
  case setOptions options =>
    intro field among
    obtain ⟨entry, -, rfl⟩ := List.mem_map.mp among
    exact Json.legible_ofString entry.2
  case addLink link => exact losses link.loss rfl
  case adjustLink adjustment => exact losses adjustment.loss rfl

theorem Switches.eq_of_toJson {call other : Call} (switches : call.Switches)
    (otherSwitches : other.Switches) (same : call.toJson Loss.toJson = other.toJson Loss.toJson) :
    call = other :=
  Call.eq_of_toJson (fun _ told _ otherTold =>
    (switches _ told).eq_of_toJson (otherSwitches _ otherTold)) same

end Call

/-! ## Logs -/

variable {calls others : List Call}

/-- The journal of a log in which links carry everything or nothing is read back as the array of its
lines. -/
theorem read?_journalText (switches : ∀ call ∈ calls, call.Switches) :
    Json.read? (journalText calls) = some (.array (calls.map (Call.toJson Loss.toJson))) := by
  refine Json.Legible.read?_pretty (.array fun item among => ?_)
  obtain ⟨call, inLog, rfl⟩ := List.mem_map.mp among
  exact (switches call inLog).legible_toJson

theorem eq_of_map_toJson (switches : ∀ call ∈ calls, call.Switches)
    (otherSwitches : ∀ call ∈ others, call.Switches)
    (lines : calls.map (Call.toJson Loss.toJson) = others.map (Call.toJson Loss.toJson)) :
    calls = others := by
  induction calls generalizing others with
  | nil => exact (List.map_eq_nil_iff.mp lines.symm).symm
  | cons call rest inductionHypothesis =>
      cases others with
      | nil => cases lines
      | cons other otherRest =>
          obtain ⟨first, later⟩ := List.forall_mem_cons.mp switches
          obtain ⟨otherFirst, otherLater⟩ := List.forall_mem_cons.mp otherSwitches
          obtain ⟨line, otherLines⟩ := List.cons.inj lines
          rw [first.eq_of_toJson otherFirst line, inductionHypothesis later otherLater otherLines]

/-- Two such logs have the same journal only if they are the same. -/
theorem eq_of_journalText (switches : ∀ call ∈ calls, call.Switches)
    (otherSwitches : ∀ call ∈ others, call.Switches)
    (same : journalText calls = journalText others) : calls = others := by
  have read := read?_journalText switches
  rw [same, read?_journalText otherSwitches] at read
  exact eq_of_map_toJson switches otherSwitches (Json.array.inj (Option.some.inj read)).symm

end ContactReplay
