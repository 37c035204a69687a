import ContactReplay.Counter
import ContactReplay.Text.Blank

/-!
# Addresses

Link-layer and network addresses are octets of a fixed number.  A link-layer address is written in
pairs of lower-case hexadecimal digits between colons, a network address in decimal numbers between
dots; both can be read back.
-/

namespace ContactReplay

def hexOctet (octet : UInt8) : String :=
  String.ofList [(octet.toNat / 16).digitChar, (octet.toNat % 16).digitChar]

def readHexOctet? (text : List Char) : Option UInt8 :=
  ((List.range 256).map UInt8.ofNat).find? fun octet =>
    (hexOctet octet).toList = text.map Char.toLower

def readOctet? (text : List Char) : Option UInt8 :=
  ((List.range 256).map UInt8.ofNat).find? fun octet => (toString octet).toList = text

/-- As many octets as asked for, if a list has that number. -/
def octets? (count : Nat) (octets : List UInt8) : Option (Vector UInt8 count) :=
  if fits : octets.toArray.size = count then some ⟨octets.toArray, fits⟩ else none

/-- A link-layer address. -/
structure MacAddress where
  octets : Vector UInt8 6
  deriving DecidableEq, Repr

namespace MacAddress

instance : ToString MacAddress :=
  ⟨fun address => ":".intercalate (address.octets.toList.map hexOctet)⟩

def read? (text : String) : Option MacAddress := do
  let octets ← (Text.splitAt (· == ':') text.toList).mapM readHexOctet?
  return ⟨← octets? 6 octets⟩

/-- The locally administered address with a sequence number, most significant octet first. -/
def ofSequence (sequence : UInt32) : MacAddress :=
  ⟨#v[0x02, 0x00, (sequence >>> 24).toUInt8, (sequence >>> 16).toUInt8, (sequence >>> 8).toUInt8,
    sequence.toUInt8]⟩

end MacAddress

/-- A network address. -/
structure Ipv4Address where
  octets : Vector UInt8 4
  deriving DecidableEq, Repr

namespace Ipv4Address

instance : ToString Ipv4Address :=
  ⟨fun address => ".".intercalate (address.octets.toList.map toString)⟩

def read? (text : String) : Option Ipv4Address := do
  let octets ← (Text.splitAt (· == '.') text.toList).mapM readOctet?
  return ⟨← octets? 4 octets⟩

end Ipv4Address

/-- The end of a link at one of its nodes. -/
structure Interface where
  id : InterfaceId
  mac : MacAddress
  ip4 : Ipv4Address
  /-- The number of leading bits that the addresses of one network share. -/
  maskLength : UInt8
  deriving DecidableEq, Repr

end ContactReplay
