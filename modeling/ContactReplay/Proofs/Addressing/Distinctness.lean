import ContactReplay.Proofs.Addressing.Allotting
import Mathlib.Data.List.Induction
import Mathlib.Data.List.Perm.Basic

/-!
# Nothing is given away twice

An address book may be asked for any pairs in any order, again for pairs that it has served, and on
when it is full.  Whatever it is asked for, it has served some different pairs one after the other
(`Allots.exists_allotAll`), and so

* the subnets are the numbers below the number of links;
* the ends of the links are numbered through in their link-layer addresses, and no two ends have a
  network address in common;
* the interfaces of every node are numbered from zero without a gap.
-/

namespace ContactReplay

theorem MacAddress.ofSequence_injective : Function.Injective MacAddress.ofSequence := by
  intro first second same
  have octets : first.toNat / 2 ^ 24 % 256 = second.toNat / 2 ^ 24 % 256 ∧
      first.toNat / 2 ^ 16 % 256 = second.toNat / 2 ^ 16 % 256 ∧
      first.toNat / 2 ^ 8 % 256 = second.toNat / 2 ^ 8 % 256 ∧
      first.toNat % 256 = second.toNat % 256 := by
    simpa [ofSequence, ← UInt8.toNat_inj, Nat.shiftRight_eq_div_pow] using same
  have firstBound := first.toNat_lt
  have secondBound := second.toNat_lt
  apply UInt32.toNat_inj.mp
  omega

namespace AddressBook

/-- A book after it has been asked for some pairs one by one, whether it served them or not. -/
def allotAll (book : AddressBook) (pairs : List (Pair NodeId)) : AddressBook :=
  pairs.foldl (fun current pair => (current.allot pair).2) book

theorem start_eq_ok_iff {plan : AddressPlan} {book : AddressBook} :
    start plan = .ok book ↔ plan.check = .ok () ∧ book = { plan } := by
  rw [start]
  cases checked : plan.check with
  | error cause => exact iff_of_false nofun fun accepted => nomatch accepted.1
  | ok nothing =>
      constructor
      · intro started
        exact ⟨rfl, (Except.ok.inj started).symm⟩
      · rintro ⟨-, rfl⟩
        rfl

namespace Allots

variable {book : AddressBook} {plan : AddressPlan} {pairs : List (Pair NodeId)}

theorem allot_of_mem (allots : book.Allots plan pairs) {pair : Pair NodeId}
    (member : pair ∈ pairs) : book.allot pair = (.ok (plan.allotment pairs pair), book) := by
  have held : book.get? pair = some (plan.allotment pairs pair) := by
    rw [allots.allotments, if_pos member]
  rw [AddressBook.allot, held]

/-- A pair has been served before, is served as the next one, or finds no subnet left. -/
theorem allot_cases (allots : book.Allots plan pairs) (small : plan.subnetCapacity.toNat ≤ 256)
    (pair : Pair NodeId) :
    (pair ∈ pairs ∧ book.allot pair = (.ok (plan.allotment pairs pair), book)) ∨
    (pair ∉ pairs ∧ pairs.length < plan.subnetCapacity.toNat ∧
      ∃ next, book.allot pair = (.ok (plan.allotmentAfter pairs pair), next) ∧
        next.Allots plan (pairs ++ [pair])) ∨
    (pair ∉ pairs ∧ plan.subnetCapacity.toNat ≤ pairs.length ∧
      book.allot pair = (.error (.subnetsExhausted plan.subnetCapacity), book)) := by
  by_cases member : pair ∈ pairs
  · exact Or.inl ⟨member, allots.allot_of_mem member⟩
  have missing := allots.get?_eq_none_iff.mpr member
  have counted := allots.toNat_subnets small
  rcases Nat.lt_or_ge pairs.length plan.subnetCapacity.toNat with room | full
  · have left : book.subnets.next.toNat < book.plan.subnetCapacity.toNat := by
      rwa [counted, allots.planned]
    obtain ⟨given, next, served, -⟩ := allot_of_room missing left
    obtain ⟨rfl, nextAllots⟩ := allots.allot small member served
    exact Or.inr (Or.inl ⟨member, room, next, served, nextAllots⟩)
  · have gone : book.plan.subnetCapacity.toNat ≤ book.subnets.next.toNat := by
      rwa [counted, allots.planned]
    have refused := allot_of_full missing gone
    rw [allots.planned] at refused
    exact Or.inr (Or.inr ⟨member, full, refused⟩)

/-- A new pair is served as long as there are subnets left. -/
theorem allot_new (allots : book.Allots plan pairs)
    (small : plan.subnetCapacity.toNat ≤ 256) (pair : Pair NodeId) (new : pair ∉ pairs)
    (room : pairs.length < plan.subnetCapacity.toNat) :
    (book.allot pair).2.Allots plan (pairs ++ [pair]) := by
  rcases allots.allot_cases small pair with
    ⟨member, -⟩ | ⟨-, -, next, served, nextAllots⟩ | ⟨-, full, -⟩
  · exact absurd member new
  · rwa [served]
  · exact absurd full (Nat.not_le.mpr room)

/-- Whatever a book is asked for, it serves nothing or one more pair. -/
theorem exists_allot (allots : book.Allots plan pairs) (small : plan.subnetCapacity.toNat ≤ 256)
    (pair : Pair NodeId) : ∃ later, (book.allot pair).2.Allots plan (pairs ++ later) := by
  rcases allots.allot_cases small pair with
    ⟨-, known⟩ | ⟨-, -, next, served, nextAllots⟩ | ⟨-, -, refused⟩
  · refine ⟨[], ?_⟩
    rwa [known, List.append_nil]
  · refine ⟨[pair], ?_⟩
    rwa [served]
  · refine ⟨[], ?_⟩
    rwa [refused, List.append_nil]

/-- Whatever a book is asked for, it has served some pairs in order. -/
theorem exists_allotAll (allots : book.Allots plan pairs)
    (small : plan.subnetCapacity.toNat ≤ 256) (requests : List (Pair NodeId)) :
    ∃ served, (book.allotAll requests).Allots plan served := by
  induction requests generalizing book pairs with
  | nil => exact ⟨pairs, allots⟩
  | cons pair rest inductionHypothesis =>
      obtain ⟨later, next⟩ := allots.exists_allot small pair
      exact inductionHypothesis next

end Allots

/-- A book that was started with a usable plan has served some pairs in order, as few as an octet
can number. -/
theorem exists_allots_of_start {plan : AddressPlan} {book : AddressBook}
    (started : start plan = .ok book) (requests : List (Pair NodeId)) :
    ∃ served, (book.allotAll requests).Allots plan served ∧ served.length ≤ 256 := by
  obtain ⟨checked, rfl⟩ := start_eq_ok_iff.mp started
  have small : plan.subnetCapacity.toNat ≤ 256 :=
    UInt64.le_iff_toNat_le.mp (AddressPlan.check_eq_ok_iff.mp checked).2.1
  obtain ⟨served, allots⟩ := (allots_nil plan).exists_allotAll small requests
  exact ⟨served, allots, Nat.le_trans allots.room small⟩

end AddressBook

/-! ## Numbered ends -/

theorem length_linkEnds (pairs : List (Pair NodeId)) :
    (linkEnds pairs).length = 2 * pairs.length := by
  simp [linkEnds, List.length_flatMap, Nat.mul_comm]

theorem length_linkEnds_le {pairs : List (Pair NodeId)} (few : pairs.length ≤ 256) :
    (linkEnds pairs).length ≤ UInt32.size := by
  rw [length_linkEnds]
  exact Nat.le_trans (Nat.mul_le_mul_left 2 few) (by decide)

/-- Numbers of 32 bits are told apart below 2^32. -/
theorem map_toNat_ofNat_range {count : Nat} (few : count ≤ UInt32.size) :
    (List.range count).map (UInt32.toNat ∘ UInt32.ofNat) = List.range count := by
  conv_rhs => rw [← List.map_id (List.range count)]
  apply List.map_congr_left
  intro place below
  exact UInt32.toNat_ofNat_of_lt' (Nat.lt_of_lt_of_le (List.mem_range.mp below) few)

/-- The ends of the links of some pairs that are served in order, with what they get. -/
def AddressPlan.givenEnds (plan : AddressPlan) (pairs : List (Pair NodeId)) :
    List (NodeId × Interface) :=
  pairs.flatMap fun pair =>
    [(pair.low, (plan.allotment pairs pair).low), (pair.high, (plan.allotment pairs pair).high)]

/-- Interfaces that some ends have got one after the other: link-layer addresses count all ends, and
identifiers count the ends of one node. -/
structure NumberedEnds (given : List (NodeId × Interface)) (ends : List NodeId) : Prop where
  macs : given.map (·.2.mac) =
    (List.range ends.length).map fun place => .ofSequence (UInt32.ofNat place)
  ids : ∀ node, (given.filter (·.1 == node)).map (·.2.id) =
    (List.range (ends.count node)).map UInt32.ofNat

theorem numberedEnds_nil : NumberedEnds [] [] := ⟨rfl, fun _ => rfl⟩

theorem NumberedEnds.concat {given : List (NodeId × Interface)} {ends : List NodeId}
    (numbered : NumberedEnds given ends) (plan : AddressPlan) (node : NodeId)
    (subnet host : UInt8) :
    NumberedEnds (given ++ [(node, plan.interfaceAfter ends node subnet host)])
      (ends ++ [node]) where
  macs := by
    rw [List.map_append, numbered.macs, List.length_append, List.length_singleton,
      List.range_succ, List.map_append]
    rfl
  ids other := by
    by_cases same : node = other
    · subst same
      rw [List.filter_append, List.map_append, numbered.ids, List.count_append,
        List.count_singleton_self, List.range_succ, List.map_append]
      simp [AddressPlan.interfaceAfter]
    · rw [List.filter_append, List.map_append, numbered.ids, List.count_append,
        List.count_singleton]
      simp [same]

namespace AddressPlan

variable {plan : AddressPlan} {pairs : List (Pair NodeId)}

theorem givenEnds_concat {pair : Pair NodeId} (new : pair ∉ pairs) :
    plan.givenEnds (pairs ++ [pair]) = plan.givenEnds pairs ++
      [(pair.low, (plan.allotmentAfter pairs pair).low)] ++
      [(pair.high, (plan.allotmentAfter pairs pair).high)] := by
  have kept : ∀ known ∈ pairs,
      plan.allotment (pairs ++ [pair]) known = plan.allotment pairs known :=
    fun known member => allotment_append member [pair]
  rw [givenEnds, List.flatMap_append, List.flatMap_singleton, allotment_append_self new,
    List.append_assoc]
  congr 1
  apply List.flatMap_congr
  intro known member
  rw [kept known member]

/-- Pairs that are served in order number their ends. -/
theorem numberedEnds_givenEnds (plan : AddressPlan) (distinct : pairs.Nodup) :
    NumberedEnds (plan.givenEnds pairs) (linkEnds pairs) := by
  induction pairs using List.reverseRecOn with
  | nil => exact numberedEnds_nil
  | append_singleton earlier pair inductionHypothesis =>
      obtain ⟨earlierDistinct, -, apart⟩ := List.nodup_append.mp distinct
      have new : pair ∉ earlier := fun member => apart pair member pair List.mem_cons_self rfl
      rw [givenEnds_concat new, linkEnds_append_singleton]
      exact ((inductionHypothesis earlierDistinct).concat plan _ _ _).concat plan _ _ _

/-- The addresses of an interface: those of its subnet and of its side of the link. -/
theorem ip4_allotment (plan : AddressPlan) (pairs : List (Pair NodeId)) (pair : Pair NodeId) :
    (plan.allotment pairs pair).low.ip4 =
        plan.address (plan.allotment pairs pair).subnet plan.lowHost ∧
      (plan.allotment pairs pair).high.ip4 =
        plan.address (plan.allotment pairs pair).subnet plan.highHost :=
  ⟨rfl, rfl⟩

theorem exists_host_of_mem {pair : Pair NodeId} {address : Ipv4Address}
    (member : address ∈ [(plan.allotment pairs pair).low, (plan.allotment pairs pair).high].map
      (·.ip4)) :
    ∃ host, address = plan.address (plan.allotment pairs pair).subnet host := by
  obtain ⟨ofLow, ofHigh⟩ := plan.ip4_allotment pairs pair
  simp only [List.map_cons, List.map_nil, List.mem_cons, List.not_mem_nil, or_false] at member
  rcases member with rfl | rfl
  · exact ⟨plan.lowHost, ofLow⟩
  · exact ⟨plan.highHost, ofHigh⟩

/-- No two ends have a network address in common. -/
theorem nodup_addresses (distinct : pairs.Nodup) (few : pairs.length ≤ 256)
    (hosts : plan.lowHost ≠ plan.highHost) :
    ((plan.givenEnds pairs).map (·.2.ip4)).Nodup := by
  rw [givenEnds, List.map_flatMap, List.nodup_flatMap]
  constructor
  · intro pair _
    obtain ⟨lowAddress, highAddress⟩ := plan.ip4_allotment pairs pair
    simp only [List.map_cons, List.map_nil, lowAddress, highAddress, List.nodup_cons,
      List.mem_singleton, List.not_mem_nil, not_false_eq_true, List.nodup_nil, and_true]
    intro same
    exact hosts (address_injective same).2
  · refine distinct.pairwise_of_forall_ne fun pair member other otherMember different => ?_
    intro address ofPair ofOther
    obtain ⟨host, first⟩ := exists_host_of_mem ofPair
    obtain ⟨otherHost, second⟩ := exists_host_of_mem ofOther
    have sameSubnet := (address_injective (first.symm.trans second)).1
    exact different (subnet_injective few member otherMember sameSubnet)

/-- The subnets of pairs that are served in order are numbered through. -/
theorem map_toNat_subnet (plan : AddressPlan) (distinct : pairs.Nodup) (few : pairs.length ≤ 256) :
    pairs.map (fun pair => (plan.allotment pairs pair).subnet.toNat) =
      List.range pairs.length := by
  apply List.ext_getElem
  · rw [List.length_map, List.length_range]
  intro place inMapped _
  have inPairs : place < pairs.length := by rwa [List.length_map] at inMapped
  rw [List.getElem_map, List.getElem_range, subnet_allotment (List.getElem_mem inPairs),
    distinct.idxOf_getElem place inPairs,
    UInt8.toNat_ofNat_of_lt' (Nat.lt_of_lt_of_le inPairs few)]

end AddressPlan

/-! ## What books hold -/

namespace AddressBook

/-- The ends of the links of a book, with the interfaces that they have been given. -/
def given (book : AddressBook) : List (NodeId × Interface) :=
  book.allotments.entries.flatMap fun entry =>
    [(entry.1.low, entry.2.low), (entry.1.high, entry.2.high)]

/-- A book in which no subnet, no address and no number of an interface stands twice. -/
structure GivesOnce (book : AddressBook) : Prop where
  /-- The subnets are the numbers below the number of links. -/
  subnets : (book.allotments.values.map (·.subnet.toNat)).Perm (List.range book.size)
  macs : (book.given.map (·.2.mac)).Nodup
  /-- Link-layer addresses are locally administered. -/
  administered : ∀ entry ∈ book.given,
    entry.2.mac.octets[0] = 0x02 ∧ entry.2.mac.octets[1] = 0x00
  addresses : (book.given.map (·.2.ip4)).Nodup
  /-- The interfaces of a node are the numbers below the number of its link ends. -/
  interfaces : ∀ node, ((book.given.filter (·.1 == node)).map (·.2.id.toNat)).Perm
    (List.range ((linkEnds book.allotments.keys).count node))

namespace Allots

variable {book : AddressBook} {plan : AddressPlan} {pairs : List (Pair NodeId)}
  (allots : book.Allots plan pairs)
include allots

theorem entries_perm :
    book.allotments.entries.Perm (pairs.map fun pair => (pair, plan.allotment pairs pair)) := by
  have distinctEntries : book.allotments.entries.Nodup := book.allotments.keys_nodup.of_map _
  have distinctPairs : (pairs.map fun pair => (pair, plan.allotment pairs pair)).Nodup :=
    allots.distinct.map fun pair other same => (Prod.mk.inj same).1
  apply (List.perm_ext_iff_of_nodup distinctEntries distinctPairs).mpr
  rintro ⟨pair, allotment⟩
  have held := allots.allotments pair
  rw [get?] at held
  rw [← Table.get?_eq_some_iff, held]
  by_cases member : pair ∈ pairs <;> simp [member, eq_comm]

theorem keys_perm : book.allotments.keys.Perm pairs := by
  have keys := allots.entries_perm.map Prod.fst
  rwa [List.map_map, Function.comp_def, List.map_id'] at keys

theorem size_eq : book.size = pairs.length := by
  have lengths := allots.entries_perm.length_eq
  rwa [List.length_map] at lengths

theorem given_perm : book.given.Perm (plan.givenEnds pairs) := by
  have given := allots.entries_perm.flatMap_right fun entry =>
    [(entry.1.low, entry.2.low), (entry.1.high, entry.2.high)]
  rwa [List.flatMap_map] at given

theorem subnets_perm (few : pairs.length ≤ 256) :
    (book.allotments.values.map (·.subnet.toNat)).Perm (List.range book.size) := by
  have subnets := allots.entries_perm.map fun entry => entry.2.subnet.toNat
  rw [List.map_map] at subnets
  rw [Table.values, List.map_map, allots.size_eq,
    ← plan.map_toNat_subnet allots.distinct few]
  exact subnets

/-- The link-layer addresses of all ends are numbered through. -/
theorem macs_perm : (book.given.map (·.2.mac)).Perm
    ((List.range (linkEnds pairs).length).map fun place => .ofSequence (UInt32.ofNat place)) := by
  rw [← (plan.numberedEnds_givenEnds allots.distinct).macs]
  exact allots.given_perm.map _

theorem macs_nodup (few : pairs.length ≤ 256) : (book.given.map (·.2.mac)).Nodup := by
  have places : ((List.range (linkEnds pairs).length).map UInt32.ofNat).Nodup := by
    apply List.Nodup.of_map UInt32.toNat
    rw [List.map_map, map_toNat_ofNat_range (length_linkEnds_le few)]
    exact List.nodup_range
  have sequences := places.map MacAddress.ofSequence_injective
  rw [List.map_map] at sequences
  exact allots.macs_perm.nodup_iff.mpr sequences

theorem interfaces_perm (few : pairs.length ≤ 256) (node : NodeId) :
    ((book.given.filter (·.1 == node)).map (·.2.id.toNat)).Perm
      (List.range ((linkEnds book.allotments.keys).count node)) := by
  have numbered := plan.numberedEnds_givenEnds allots.distinct
  have ends : (linkEnds book.allotments.keys).count node = (linkEnds pairs).count node :=
    (allots.keys_perm.flatMap_right _).count_eq node
  have ids := ((allots.given_perm.filter (·.1 == node)).map (·.2.id)).map UInt32.toNat
  rw [numbered.ids, List.map_map, List.map_map] at ids
  have bound : (linkEnds pairs).count node ≤ UInt32.size :=
    Nat.le_trans List.count_le_length (length_linkEnds_le few)
  rw [map_toNat_ofNat_range bound] at ids
  rwa [ends]

theorem givesOnce (few : pairs.length ≤ 256) (hosts : plan.lowHost ≠ plan.highHost) :
    book.GivesOnce where
  subnets := allots.subnets_perm few
  macs := allots.macs_nodup few
  administered entry member := by
    have listed := allots.macs_perm.mem_iff.mp (List.mem_map_of_mem member)
    obtain ⟨place, -, same⟩ := List.mem_map.mp listed
    rw [← same]
    exact ⟨rfl, rfl⟩
  addresses := (allots.given_perm.map _).nodup_iff.mpr
    (AddressPlan.nodup_addresses allots.distinct few hosts)
  interfaces := allots.interfaces_perm few

end Allots

/-- Whatever a book has been asked for, it has given nothing away twice. -/
theorem allotAll_givesOnce {plan : AddressPlan} {book : AddressBook}
    (started : start plan = .ok book) (requests : List (Pair NodeId)) :
    (book.allotAll requests).GivesOnce := by
  obtain ⟨served, allots, few⟩ := exists_allots_of_start started requests
  obtain ⟨checked, -⟩ := start_eq_ok_iff.mp started
  exact allots.givesOnce few (AddressPlan.check_eq_ok_iff.mp checked).2.2.1

/-- A small book that is asked twice for one pair, for a node with itself and for more than it
has. -/
theorem allotAll_givesOnce_overfull :
    let plan : AddressPlan := { subnetCapacity := 3 }
    ∃ book, start plan = .ok book ∧
      (book.allotAll [.of 1 2, .of 3 3, .of 2 1, .of 3 1, .of 4 5, .of 3 3]).GivesOnce := by
  intro plan
  have started : start plan = .ok { plan } := by decide
  exact ⟨_, started, allotAll_givesOnce started _⟩

end AddressBook

end ContactReplay
