import ContactReplay.Contact.Name
import ContactReplay.Pair

/-!
# Contacts

A contact says that two nodes were within reach of each other from one moment to another, both
counted in discrete steps.
-/

namespace ContactReplay

/-- One observed contact between two nodes. -/
structure Contact where
  observer : NodeName
  observed : NodeName
  start : UInt64
  /-- The last step of the contact; a value below `start` is possible and is refused where it
  matters. -/
  stop : UInt64
  deriving DecidableEq, Repr

namespace Contact

/-- The two nodes of a contact, without regard to who observed whom. -/
def pair (contact : Contact) : Pair NodeName := .of contact.observer contact.observed

end Contact

end ContactReplay
