import ContactReplay.Addressing.Address
import ContactReplay.Error
import ContactReplay.Table

/-!
# Address books

Every pair of nodes that is to be linked gets a subnet of its own, with one address for either end.
An `AddressBook` counts subnets and link-layer addresses for all pairs together and interfaces for
each node, and it keeps what it has given away: asking again for a pair gives the same allotment.
-/

namespace ContactReplay

/-- How addresses are given away. -/
structure AddressPlan where
  /-- The first two octets of every network address. -/
  block : UInt8 × UInt8 := (10, 0)
  subnetCapacity : UInt64 := 255
  /-- The last octet at the smaller node of a link. -/
  lowHost : UInt8 := 20
  /-- The last octet at the larger node of a link. -/
  highHost : UInt8 := 21
  maskLength : UInt8 := 24
  deriving DecidableEq, Repr, Inhabited

/-- What a pair of nodes gets for its link. -/
structure Allotment where
  subnet : UInt8
  low : Interface
  high : Interface
  deriving DecidableEq, Repr

/-- What has been given away and what comes next. -/
structure AddressBook where
  plan : AddressPlan
  subnets : Counter := {}
  interfaces : Table NodeId Counter := ∅
  macs : Counter := {}
  allotments : Table (Pair NodeId) Allotment := ∅
  deriving DecidableEq, Repr

namespace AddressPlan

/-- Refuse a plan that cannot give distinct addresses or whose numbers are out of range. -/
def check (plan : AddressPlan) : Except ConfigError Unit :=
  if plan.subnetCapacity = 0 ∨ 256 < plan.subnetCapacity then
    .error (.subnetCapacity plan.subnetCapacity)
  else if plan.lowHost = plan.highHost then .error .equalHosts
  else if 32 < plan.maskLength then .error (.maskLength plan.maskLength)
  else .ok ()

end AddressPlan

namespace AddressBook

def start (plan : AddressPlan) : Except Error AddressBook :=
  (plan.check.mapError .config).map fun _ => { plan }

def get? (book : AddressBook) (pair : Pair NodeId) : Option Allotment := book.allotments.get? pair

def size (book : AddressBook) : Nat := book.allotments.size

def isEmpty (book : AddressBook) : Bool := book.allotments.isEmpty

def issue (book : AddressBook) (node : NodeId) (subnet host : UInt8) : Interface × AddressBook :=
  let ids := (book.interfaces.get? node).getD {}
  let (first, second) := book.plan.block
  (⟨ids.next, .ofSequence book.macs.next, ⟨#v[first, second, subnet, host]⟩,
      book.plan.maskLength⟩,
    { book with
      interfaces := book.interfaces.insert node ids.advance
      macs := book.macs.advance })

/-- The allotment of a pair, made now if the pair has none.  A refused pair changes nothing. -/
def allot (book : AddressBook) (pair : Pair NodeId) : Except Error Allotment × AddressBook :=
  match book.get? pair with
  | some allotment => (.ok allotment, book)
  | none =>
      if book.subnets.next.toNat ≥ book.plan.subnetCapacity.toNat then
        (.error (.subnetsExhausted book.plan.subnetCapacity), book)
      else
        let subnet := book.subnets.next.toUInt8
        let counted := { book with subnets := book.subnets.advance }
        let (low, withLow) := counted.issue pair.low subnet book.plan.lowHost
        let (high, withHigh) := withLow.issue pair.high subnet book.plan.highHost
        let allotment : Allotment := ⟨subnet, low, high⟩
        (.ok allotment, { withHigh with allotments := withHigh.allotments.insert pair allotment })

end AddressBook

end ContactReplay
