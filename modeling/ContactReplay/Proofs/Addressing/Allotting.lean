import ContactReplay.Addressing.AddressBook
import Mathlib.Data.List.Nodup

/-!
# What address books give away

Every number in an allotment follows from the pairs that were served before.  An interface has the
next number of its node, its link-layer address comes after those of all ends so far, and the subnet
is the number of pairs so far.  `AddressPlan.allotment` says so, and `AddressBook.Allots` says that
a book has served some pairs in order and nothing else.
-/

namespace ContactReplay

theorem Counter.next_advance {count : Nat} {counter : Counter}
    (counted : counter.next = UInt32.ofNat count) :
    counter.advance.next = UInt32.ofNat (count + 1) := by
  rw [advance, counted, UInt32.ofNat_add]
  rfl

/-- The ends of the links of some pairs, one after the other. -/
def linkEnds (pairs : List (Pair NodeId)) : List NodeId :=
  pairs.flatMap fun pair => [pair.low, pair.high]

theorem linkEnds_append_singleton (pairs : List (Pair NodeId)) (pair : Pair NodeId) :
    linkEnds (pairs ++ [pair]) = linkEnds pairs ++ [pair.low] ++ [pair.high] := by
  rw [linkEnds, List.flatMap_append, List.append_assoc]
  rfl

namespace AddressPlan

/-- The plans that can be used. -/
theorem check_eq_ok_iff {plan : AddressPlan} :
    plan.check = .ok () ↔ plan.subnetCapacity ≠ 0 ∧ plan.subnetCapacity ≤ 256 ∧
      plan.lowHost ≠ plan.highHost ∧ plan.maskLength ≤ 32 := by
  rw [check]
  by_cases outOfRange : plan.subnetCapacity = 0 ∨ 256 < plan.subnetCapacity
  · rw [if_pos outOfRange]
    exact iff_of_false nofun fun accepted =>
      outOfRange.elim accepted.1 (UInt64.not_lt.mpr accepted.2.1)
  obtain ⟨some, few⟩ := not_or.mp outOfRange
  rw [if_neg outOfRange]
  by_cases hosts : plan.lowHost = plan.highHost
  · rw [if_pos hosts]
    exact iff_of_false nofun fun accepted => accepted.2.2.1 hosts
  rw [if_neg hosts]
  by_cases long : 32 < plan.maskLength
  · rw [if_pos long]
    exact iff_of_false nofun fun accepted => UInt8.not_lt.mpr accepted.2.2.2 long
  · rw [if_neg long]
    exact iff_of_true rfl ⟨some, UInt64.not_lt.mp few, hosts, UInt8.not_lt.mp long⟩

/-- The network address of a host of a subnet. -/
def address (plan : AddressPlan) (subnet host : UInt8) : Ipv4Address :=
  ⟨#v[plan.block.1, plan.block.2, subnet, host]⟩

/-- The interface that a node gets after some ends have got theirs. -/
def interfaceAfter (plan : AddressPlan) (ends : List NodeId) (node : NodeId)
    (subnet host : UInt8) : Interface where
  id := UInt32.ofNat (ends.count node)
  mac := .ofSequence (UInt32.ofNat ends.length)
  ip4 := plan.address subnet host
  maskLength := plan.maskLength

/-- What a pair gets after some other pairs. -/
def allotmentAfter (plan : AddressPlan) (before : List (Pair NodeId)) (pair : Pair NodeId) :
    Allotment :=
  let subnet := UInt8.ofNat before.length
  { subnet
    low := plan.interfaceAfter (linkEnds before) pair.low subnet plan.lowHost
    high := plan.interfaceAfter (linkEnds before ++ [pair.low]) pair.high subnet plan.highHost }

/-- What one of some pairs gets if they are served in order. -/
def allotment (plan : AddressPlan) (pairs : List (Pair NodeId)) (pair : Pair NodeId) : Allotment :=
  plan.allotmentAfter (pairs.take (pairs.idxOf pair)) pair

section Order

variable {plan : AddressPlan} {pairs : List (Pair NodeId)} {pair : Pair NodeId}

/-- Pairs that are served later change nothing. -/
theorem allotment_append (member : pair ∈ pairs) (later : List (Pair NodeId)) :
    plan.allotment (pairs ++ later) pair = plan.allotment pairs pair := by
  rw [allotment, List.idxOf_append_of_mem member,
    List.take_append_of_le_length (Nat.le_of_lt (List.idxOf_lt_length_of_mem member)), allotment]

theorem allotment_append_self (new : pair ∉ pairs) :
    plan.allotment (pairs ++ [pair]) pair = plan.allotmentAfter pairs pair := by
  rw [allotment, List.idxOf_append_of_notMem new, List.idxOf_cons_self, Nat.add_zero,
    List.take_left]

/-- The subnet of a pair is its place among the pairs. -/
theorem subnet_allotment (member : pair ∈ pairs) :
    (plan.allotment pairs pair).subnet = UInt8.ofNat (pairs.idxOf pair) := by
  have place := List.idxOf_lt_length_of_mem member
  rw [allotment, allotmentAfter]
  dsimp only
  rw [List.length_take, Nat.min_eq_left (Nat.le_of_lt place)]

theorem address_injective {subnet otherSubnet host otherHost : UInt8}
    (same : plan.address subnet host = plan.address otherSubnet otherHost) :
    subnet = otherSubnet ∧ host = otherHost := by
  simpa [address] using same

/-- As long as subnets are numbered by an octet, different pairs have different subnets. -/
theorem subnet_injective {other : Pair NodeId} (few : pairs.length ≤ 256) (member : pair ∈ pairs)
    (otherMember : other ∈ pairs)
    (same : (plan.allotment pairs pair).subnet = (plan.allotment pairs other).subnet) :
    pair = other := by
  have place := List.idxOf_lt_length_of_mem member
  have otherPlace := List.idxOf_lt_length_of_mem otherMember
  have places := congrArg UInt8.toNat same
  rw [subnet_allotment member, subnet_allotment otherMember,
    UInt8.toNat_ofNat_of_lt' (Nat.lt_of_lt_of_le place few),
    UInt8.toNat_ofNat_of_lt' (Nat.lt_of_lt_of_le otherPlace few)] at places
  exact (List.idxOf_inj member).mp places

end Order

end AddressPlan

namespace AddressBook

section Requests

variable {book : AddressBook} {pair : Pair NodeId}

theorem allot_of_room (new : book.get? pair = none)
    (room : book.subnets.next.toNat < book.plan.subnetCapacity.toNat) :
    ∃ allotment next, book.allot pair = (.ok allotment, next) ∧ next.plan = book.plan ∧
      next.subnets = book.subnets.advance ∧
      next.allotments = book.allotments.insert pair allotment := by
  rw [allot, new]
  dsimp only
  rw [if_neg (Nat.not_le.mpr room)]
  exact ⟨_, _, rfl, rfl, rfl, rfl⟩

theorem allot_of_full (new : book.get? pair = none)
    (full : book.plan.subnetCapacity.toNat ≤ book.subnets.next.toNat) :
    book.allot pair = (.error (.subnetsExhausted book.plan.subnetCapacity), book) := by
  rw [allot, new]
  exact if_pos full

end Requests

/-- A book has given interfaces to some ends, one after the other. -/
structure Numbers (book : AddressBook) (ends : List NodeId) : Prop where
  interfaces : ∀ node, ((book.interfaces.get? node).getD {}).next = UInt32.ofNat (ends.count node)
  macs : book.macs.next = UInt32.ofNat ends.length

/-- A book has served some pairs in order. -/
structure Allots (book : AddressBook) (plan : AddressPlan) (pairs : List (Pair NodeId)) : Prop where
  planned : book.plan = plan
  distinct : pairs.Nodup
  room : pairs.length ≤ plan.subnetCapacity.toNat
  subnets : book.subnets.next = UInt32.ofNat pairs.length
  numbers : book.Numbers (linkEnds pairs)
  allotments : ∀ pair, book.get? pair =
    if pair ∈ pairs then some (plan.allotment pairs pair) else none

theorem allots_nil (plan : AddressPlan) : Allots { plan } plan [] where
  planned := rfl
  distinct := List.nodup_nil
  room := Nat.zero_le _
  subnets := rfl
  numbers := ⟨fun _ => rfl, rfl⟩
  allotments _ := rfl

/-- The next end gets its interface. -/
theorem Numbers.issue {book : AddressBook} {ends : List NodeId} (numbers : book.Numbers ends)
    (node : NodeId) (subnet host : UInt8) :
    ∃ next, book.issue node subnet host =
        (book.plan.interfaceAfter ends node subnet host, next) ∧
      next.Numbers (ends ++ [node]) ∧ next.plan = book.plan ∧ next.subnets = book.subnets ∧
      next.allotments = book.allotments := by
  refine ⟨_, Prod.ext ?_ rfl, ⟨fun other => ?_, ?_⟩, rfl, rfl, rfl⟩
  · rw [AddressBook.issue, AddressPlan.interfaceAfter, ← numbers.interfaces, ← numbers.macs]
    rfl
  · by_cases same : other = node
    · subst same
      rw [AddressBook.issue]
      simp only [Table.get?_insert_self, Option.getD_some, List.count_append,
        List.count_singleton_self]
      exact Counter.next_advance (numbers.interfaces other)
    · rw [AddressBook.issue]
      simp only [Table.get?_insert_of_ne _ _ same, List.count_append]
      rw [numbers.interfaces, List.count_singleton, beq_eq_false_iff_ne.mpr (Ne.symm same)]
      rfl
  · rw [List.length_append]
    exact Counter.next_advance numbers.macs

namespace Allots

variable {book next : AddressBook} {plan : AddressPlan} {pairs : List (Pair NodeId)}
  {pair : Pair NodeId} {given : Allotment} (allots : book.Allots plan pairs)
include allots

theorem get?_eq_none_iff : book.get? pair = none ↔ pair ∉ pairs := by
  rw [allots.allotments]
  split <;> simp_all

theorem toNat_subnets (small : plan.subnetCapacity.toNat ≤ 256) :
    book.subnets.next.toNat = pairs.length := by
  have few : pairs.length < UInt32.size := by
    have enough := allots.room
    exact Nat.lt_of_le_of_lt (Nat.le_trans enough small) (by decide)
  rw [allots.subnets, UInt32.toNat_ofNat_of_lt' few]

/-- A new pair that is served is served as the last one. -/
theorem allot (small : plan.subnetCapacity.toNat ≤ 256) (new : pair ∉ pairs)
    (served : book.allot pair = (.ok given, next)) :
    given = plan.allotmentAfter pairs pair ∧ next.Allots plan (pairs ++ [pair]) := by
  have missing := allots.get?_eq_none_iff.mpr new
  have counted := allots.toNat_subnets small
  have subnet : book.subnets.next.toUInt8 = UInt8.ofNat pairs.length := by
    rw [allots.subnets, UInt32.toUInt8_ofNat']
  have counting : Numbers { book with subnets := book.subnets.advance } (linkEnds pairs) :=
    ⟨allots.numbers.interfaces, allots.numbers.macs⟩
  obtain ⟨withLow, lowIssued, lowNumbers, lowPlan, lowSubnets, lowAllotments⟩ :=
    counting.issue pair.low (UInt8.ofNat pairs.length) book.plan.lowHost
  obtain ⟨withHigh, highIssued, highNumbers, highPlan, highSubnets, highAllotments⟩ :=
    lowNumbers.issue pair.high (UInt8.ofNat pairs.length) book.plan.highHost
  rw [AddressBook.allot, missing] at served
  dsimp only at served
  split at served
  · cases (Prod.mk.inj served).1
  · rename_i room
    rw [allots.planned, counted, Nat.not_le] at room
    rw [subnet, lowIssued] at served
    dsimp only at served
    rw [highIssued, lowPlan, allots.planned] at served
    obtain ⟨sameGiven, rfl⟩ := Prod.mk.inj served
    obtain rfl : plan.allotmentAfter pairs pair = given := Except.ok.inj sameGiven
    refine ⟨rfl, ?_, ?_, ?_, ?_, ?_, fun other => ?_⟩
    · exact (highPlan.trans lowPlan).trans allots.planned
    · exact List.nodup_append.mpr ⟨allots.distinct, List.nodup_singleton pair,
        fun _ member _ last same => new (List.mem_singleton.mp last ▸ same ▸ member)⟩
    · rw [List.length_append]
      exact room
    · dsimp only
      rw [highSubnets, lowSubnets, List.length_append]
      exact Counter.next_advance allots.subnets
    · rw [linkEnds_append_singleton]
      exact ⟨highNumbers.interfaces, highNumbers.macs⟩
    · by_cases same : other = pair
      · subst same
        rw [if_pos (by simp), AddressPlan.allotment_append_self new]
        exact Table.get?_insert_self _ _ _
      · rw [AddressBook.get?, Table.get?_insert_of_ne _ _ same, highAllotments, lowAllotments]
        refine (allots.allotments other).trans ?_
        by_cases member : other ∈ pairs
        · rw [if_pos member, if_pos (by simp [member]), AddressPlan.allotment_append member]
        · rw [if_neg member, if_neg (by simp [member, same])]

end Allots

end AddressBook

end ContactReplay
