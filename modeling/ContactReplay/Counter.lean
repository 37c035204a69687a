/-!
# Identifier counters

A `Counter` hands out 32-bit identifiers one after the other and starts again at zero after the last
one.
-/

namespace ContactReplay

abbrev NodeId := UInt32

abbrev SessionId := UInt32

/-- The place of an interface among the interfaces of its node, counted from zero. -/
abbrev InterfaceId := UInt32

/-- A source of identifiers. -/
structure Counter where
  next : UInt32 := 0
  deriving DecidableEq, Repr, Inhabited

namespace Counter

/-- The counter after its next identifier has been handed out; 2^32 - 1 is followed by zero. -/
def advance (counter : Counter) : Counter := ⟨counter.next + 1⟩

theorem toNat_advance {counter : Counter} (room : counter.next.toNat + 1 < UInt32.size) :
    counter.advance.next.toNat = counter.next.toNat + 1 := by
  rw [advance, UInt32.toNat_add]
  exact Nat.mod_eq_of_lt room

end Counter

end ContactReplay
