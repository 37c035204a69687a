import ContactReplay.Proofs.Addressing.Distinctness
import Mathlib.Tactic.IntervalCases

/-!
# Networks of links

The network of an address is made of its leading bits.  A link has a network of its own if its two
ends are in one network and the ends of every other link are in others (`AddressBook.Separates`).
Whether that is so depends on the number of leading bits:

* the subnets of two links differ in the third octet, and some of them in its last bit only, so all
  bits of the first three octets are needed as soon as there are two links;
* every bit beyond these is a bit of the host, in which the two hosts have to agree.

A plan is checked for neither, and `allotAll_separates_iff` says for which plans both hold.
-/

namespace ContactReplay

namespace Ipv4Address

/-- The number of 32 bits that the octets of an address make up, first octet first. -/
def number (address : Ipv4Address) : Nat :=
  address.octets.toList.foldl (fun number octet => 256 * number + octet.toNat) 0

/-- The leading bits of an address. -/
def network (address : Ipv4Address) (length : Nat) : Nat := address.number / 2 ^ (32 - length)

end Ipv4Address

namespace AddressPlan

variable {plan : AddressPlan} {pairs : List (Pair NodeId)} {length : Nat}

/-- The number of the block, the subnet and the host, one octet after the other. -/
theorem number_address (subnet host : UInt8) : (plan.address subnet host).number =
    256 * (256 * (256 * plan.block.1.toNat + plan.block.2.toNat) + subnet.toNat) + host.toNat := by
  simp [address, Ipv4Address.number]

/-- A host has no bits among the first three octets. -/
theorem host_div_eq_zero (short : length ≤ 24) (host : UInt8) :
    host.toNat / 2 ^ (32 - length) = 0 := by
  apply Nat.div_eq_of_lt
  have bits : 2 ^ 8 ≤ 2 ^ (32 - length) := Nat.pow_le_pow_right (by decide) (by omega)
  exact Nat.lt_of_lt_of_le host.toNat_lt bits

/-- With fewer than 24 leading bits, subnets that differ in their last bit only fall together. -/
theorem network_address_eq (short : length < 24) {subnet otherSubnet : UInt8}
    (near : subnet.toNat / 2 = otherSubnet.toNat / 2) (host otherHost : UInt8) :
    (plan.address subnet host).network length =
      (plan.address otherSubnet otherHost).network length := by
  have power : 2 ^ (32 - length) = 512 * 2 ^ (23 - length) := by
    rw [show 32 - length = 9 + (23 - length) by omega, Nat.pow_add]
  have bound := host.toNat_lt
  have otherBound := otherHost.toNat_lt
  rw [Ipv4Address.network, Ipv4Address.network, power, ← Nat.div_div_eq_div_mul,
    ← Nat.div_div_eq_div_mul, number_address, number_address]
  congr 1
  omega

/-- With at least 24 leading bits, a network is a subnet and the leading bits of the host. -/
theorem network_address_eq_iff (long : 24 ≤ length) {subnet otherSubnet host otherHost : UInt8} :
    (plan.address subnet host).network length =
        (plan.address otherSubnet otherHost).network length ↔
      subnet = otherSubnet ∧
        host.toNat / 2 ^ (32 - length) = otherHost.toNat / 2 ^ (32 - length) := by
  rw [Ipv4Address.network, Ipv4Address.network, number_address, number_address,
    ← UInt8.toNat_inj]
  have bound := host.toNat_lt
  have otherBound := otherHost.toNat_lt
  have few : 32 - length ≤ 8 := by omega
  generalize 32 - length = bits at few
  interval_cases bits <;> omega

/-- With fewer than 24 leading bits, the first two links have a network in common. -/
theorem network_first_eq_second (short : length < 24) {first second : Pair NodeId}
    (different : first ≠ second) (rest : List (Pair NodeId)) :
    (plan.allotment (first :: second :: rest) first).low.ip4.network length =
      (plan.allotment (first :: second :: rest) second).low.ip4.network length := by
  have firstSubnet : (plan.allotment (first :: second :: rest) first).subnet = 0 := by
    rw [subnet_allotment List.mem_cons_self, List.idxOf_cons_self]
    rfl
  have secondSubnet : (plan.allotment (first :: second :: rest) second).subnet = 1 := by
    rw [subnet_allotment (List.mem_cons_of_mem first List.mem_cons_self),
      List.idxOf_cons_ne _ different, List.idxOf_cons_self]
    rfl
  have near : (0 : UInt8).toNat / 2 = (1 : UInt8).toNat / 2 := by decide
  rw [(plan.ip4_allotment _ first).1, (plan.ip4_allotment _ second).1, firstSubnet, secondSubnet]
  exact network_address_eq short near _ _

/-- Links of different pairs have different networks if a network is at least a subnet. -/
theorem networks_ne (few : pairs.length ≤ 256) (long : 24 ≤ length)
    {pair other : Pair NodeId} (member : pair ∈ pairs) (otherMember : other ∈ pairs)
    (different : pair ≠ other) {interface otherInterface : Interface}
    (ofPair : interface ∈ [(plan.allotment pairs pair).low, (plan.allotment pairs pair).high])
    (ofOther : otherInterface ∈
      [(plan.allotment pairs other).low, (plan.allotment pairs other).high]) :
    interface.ip4.network length ≠ otherInterface.ip4.network length := by
  obtain ⟨host, address⟩ := exists_host_of_mem (List.mem_map_of_mem ofPair)
  obtain ⟨otherHost, otherAddress⟩ := exists_host_of_mem (List.mem_map_of_mem ofOther)
  intro same
  rw [address, otherAddress] at same
  have sameSubnet := ((network_address_eq_iff long).mp same).1
  exact different (subnet_injective few member otherMember sameSubnet)

end AddressPlan

namespace AddressBook

/-- Every link has a network of its own under some number of leading bits. -/
structure Separates (book : AddressBook) (length : Nat) : Prop where
  /-- The two ends of a link are in one network. -/
  joined : ∀ pair allotment, book.get? pair = some allotment →
    allotment.low.ip4.network length = allotment.high.ip4.network length
  /-- The ends of different links are in different networks. -/
  parted : ∀ pair other allotment otherAllotment, book.get? pair = some allotment →
    book.get? other = some otherAllotment → pair ≠ other →
    ∀ interface ∈ [allotment.low, allotment.high],
      ∀ otherInterface ∈ [otherAllotment.low, otherAllotment.high],
        interface.ip4.network length ≠ otherInterface.ip4.network length

namespace Allots

variable {book : AddressBook} {plan : AddressPlan} {pairs : List (Pair NodeId)}
  (allots : book.Allots plan pairs)
include allots

theorem get?_eq_some_iff {pair : Pair NodeId} {allotment : Allotment} :
    book.get? pair = some allotment ↔ pair ∈ pairs ∧ allotment = plan.allotment pairs pair := by
  rw [allots.allotments]
  by_cases member : pair ∈ pairs <;> simp [member, eq_comm]

/-- A book separates the links of its pairs exactly if there are enough leading bits for the subnets
of two links, and the hosts agree in those that are left. -/
theorem separates_iff (few : pairs.length ≤ 256) {length : Nat} :
    book.Separates length ↔ (1 < pairs.length → 24 ≤ length) ∧
      (0 < pairs.length →
        plan.lowHost.toNat / 2 ^ (32 - length) = plan.highHost.toNat / 2 ^ (32 - length)) := by
  constructor
  · intro separates
    constructor
    · intro several
      by_contra short
      match pairs, several with
      | first :: second :: rest, _ =>
          have different : first ≠ second := (List.pairwise_cons.mp allots.distinct).1 second
            List.mem_cons_self
          have firstHeld := allots.get?_eq_some_iff.mpr ⟨List.mem_cons_self, rfl⟩
          have secondHeld := allots.get?_eq_some_iff.mpr
            ⟨List.mem_cons_of_mem first List.mem_cons_self, rfl⟩
          exact separates.parted first second _ _ firstHeld secondHeld different
            _ List.mem_cons_self _ List.mem_cons_self
            (AddressPlan.network_first_eq_second (Nat.not_le.mp short) different rest)
    · intro some
      obtain ⟨pair, member⟩ := List.exists_mem_of_length_pos some
      have joined := separates.joined pair _ (allots.get?_eq_some_iff.mpr ⟨member, rfl⟩)
      rcases Nat.le_total 24 length with long | short
      · exact ((AddressPlan.network_address_eq_iff long).mp joined).2
      · rw [AddressPlan.host_div_eq_zero short, AddressPlan.host_div_eq_zero short]
  · rintro ⟨wide, agree⟩
    constructor
    · intro pair allotment held
      obtain ⟨member, rfl⟩ := allots.get?_eq_some_iff.mp held
      rcases Nat.lt_or_ge length 24 with short | long
      · exact AddressPlan.network_address_eq short rfl _ _
      · exact (AddressPlan.network_address_eq_iff long).mpr
          ⟨rfl, agree (List.length_pos_of_mem member)⟩
    · intro pair other allotment otherAllotment held otherHeld different
      obtain ⟨member, rfl⟩ := allots.get?_eq_some_iff.mp held
      obtain ⟨otherMember, rfl⟩ := allots.get?_eq_some_iff.mp otherHeld
      intro interface ofPair otherInterface ofOther
      have several : 1 < pairs.length := by
        have place := List.idxOf_lt_length_of_mem member
        have otherPlace := List.idxOf_lt_length_of_mem otherMember
        have places : pairs.idxOf pair ≠ pairs.idxOf other := fun same =>
          different ((List.idxOf_inj member).mp same)
        omega
      exact AddressPlan.networks_ne few (wide several) member otherMember different ofPair ofOther

end Allots

/-- A plan gives every link a network of its own, whatever it is asked for, exactly if a network is
at least a subnet, unless there is one subnet only, and the two hosts agree in the bits beyond. -/
theorem allotAll_separates_iff {plan : AddressPlan} {book : AddressBook}
    (started : start plan = .ok book) :
    (∀ requests, (book.allotAll requests).Separates plan.maskLength.toNat) ↔
      (plan.subnetCapacity = 1 ∨ 24 ≤ plan.maskLength) ∧
        plan.lowHost.toNat / 2 ^ (32 - plan.maskLength.toNat) =
          plan.highHost.toNat / 2 ^ (32 - plan.maskLength.toNat) := by
  obtain ⟨checked, rfl⟩ := start_eq_ok_iff.mp started
  obtain ⟨nonzero, small, -⟩ := AddressPlan.check_eq_ok_iff.mp checked
  have octet : plan.subnetCapacity.toNat ≤ 256 := UInt64.le_iff_toNat_le.mp small
  have room : 0 < plan.subnetCapacity.toNat :=
    UInt64.lt_iff_toNat_lt.mp (UInt64.pos_iff_ne_zero.mpr nonzero)
  have first := (allots_nil plan).allot_new octet (.of 0 0) List.not_mem_nil room
  constructor
  · intro separates
    constructor
    · by_cases single : plan.subnetCapacity = 1
      · exact Or.inl single
      have several : 1 < plan.subnetCapacity.toNat := by
        have other : plan.subnetCapacity.toNat ≠ 1 := fun same => single (UInt64.toNat_inj.mp same)
        omega
      have second := first.allot_new octet (.of 0 1) (by decide) several
      have wide := ((second.separates_iff (by decide)).mp (separates [.of 0 0, .of 0 1])).1
      exact Or.inr (UInt8.le_iff_toNat_le.mpr (wide (by decide)))
    · exact ((first.separates_iff (by decide)).mp (separates [.of 0 0])).2 (by decide)
  · rintro ⟨wide, agree⟩ requests
    obtain ⟨served, allots, few⟩ := exists_allots_of_start started requests
    apply (allots.separates_iff few).mpr
    refine ⟨fun several => ?_, fun _ => agree⟩
    rcases wide with single | long
    · have enough := allots.room
      rw [single] at enough
      exact absurd several (Nat.not_lt.mpr enough)
    · exact UInt8.le_iff_toNat_le.mp long

/-- A plan whose networks are quarters of subnets, with both hosts in the second quarter. -/
theorem allotAll_separates_iff_quarters :
    let plan : AddressPlan := { lowHost := 64, highHost := 127, maskLength := 26 }
    ∃ book, start plan = .ok book ∧
      ((∀ requests, (book.allotAll requests).Separates plan.maskLength.toNat) ↔
        (plan.subnetCapacity = 1 ∨ 24 ≤ plan.maskLength) ∧
          plan.lowHost.toNat / 2 ^ (32 - plan.maskLength.toNat) =
            plan.highHost.toNat / 2 ^ (32 - plan.maskLength.toNat)) := by
  intro plan
  have started : start plan = .ok { plan } := by decide
  exact ⟨_, started, allotAll_separates_iff started⟩

/-- With 16 leading bits, the links of a node to two others are in one network. -/
theorem exists_not_separates :
    let plan : AddressPlan := { maskLength := 16 }
    ∃ book, start plan = .ok book ∧
      ¬ (book.allotAll [.of 1 2, .of 1 3]).Separates plan.maskLength.toNat := by
  intro plan
  have started : start plan = .ok { plan } := by decide
  refine ⟨_, started, fun separates => ?_⟩
  exact separates.parted (.of 1 2) (.of 1 3) _ _ rfl rfl (by decide) _ List.mem_cons_self
    _ List.mem_cons_self (by decide)

end AddressBook

end ContactReplay
