/-!
# Durations

A duration is a number of nanoseconds up to the largest one that 2^64 - 1 seconds and a fraction of
a second can make.  Multiplication stops at that limit, and a sum past it does not exist.
-/

namespace ContactReplay

/-- The nanoseconds of 2^64 seconds. -/
def Duration.limit : Nat := UInt64.size * 1000000000

/-- A bounded amount of time. -/
structure Duration where
  nanoseconds : Nat
  bounded : nanoseconds < Duration.limit
  deriving DecidableEq, Repr

namespace Duration

def zero : Duration := ⟨0, by decide⟩

instance : Inhabited Duration := ⟨zero⟩

/-- The largest duration. -/
def largest : Duration := ⟨limit - 1, by decide⟩

/-- A number of nanoseconds, or the largest duration if there are too many. -/
def saturating (nanoseconds : Nat) : Duration :=
  if bounded : nanoseconds < limit then ⟨nanoseconds, bounded⟩ else largest

/-- A number of milliseconds. -/
def ofMilliseconds (milliseconds : UInt64) : Duration :=
  ⟨milliseconds.toNat * 1000000, by
    have word := milliseconds.toNat_lt_size
    simp only [limit]
    omega⟩

/-- A multiple of a duration, or the largest duration if the multiple is longer. -/
def times (duration : Duration) (count : Nat) : Duration :=
  saturating (duration.nanoseconds * count)

def sum? (durations : List Duration) : Option Duration :=
  let total := durations.foldl (fun total duration => total + duration.nanoseconds) 0
  if bounded : total < limit then some ⟨total, bounded⟩ else none

/-- The whole seconds. -/
def seconds (duration : Duration) : Nat := duration.nanoseconds / 1000000000

/-- The nanoseconds beyond the whole seconds. -/
def fraction (duration : Duration) : Nat := duration.nanoseconds % 1000000000

end Duration

end ContactReplay
