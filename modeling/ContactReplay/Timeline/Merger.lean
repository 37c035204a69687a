import ContactReplay.Error
import ContactReplay.Timeline.Basic

/-!
# Merging contacts

Contacts come from periodic scans that are not synchronised, so one meeting of two nodes shows up as
many contacts that overlap or touch.  A `Merger` takes contacts in the order of their starts and
keeps as few events as possible:

* a contact that starts while its pair is connected adds nothing at its start;
* a contact that ends within what is known changes nothing;
* any other contact moves the deletion of its pair to its own end.

A contact without duration is first made longer by the pad.  `Timeline.ofContacts` sorts contacts
and feeds all of them to a merger, so its answer does not depend on their order.
-/

namespace ContactReplay

/-- What contacts have been turned into so far. -/
structure Merger where
  /-- What is added to the end of a contact without duration. -/
  pad : UInt64
  /-- The events so far, ascending by step; those of one step in the order in which they came. -/
  marks : List Mark := []
  nodes : NameSet := ∅
  lastStart : Option UInt64 := none
  deriving DecidableEq, Repr

/-- The sum of two words, or the largest word if the sum does not fit. -/
def saturatingAdd (first second : UInt64) : UInt64 :=
  if first.toNat + second.toNat < UInt64.size then first + second else 0 - 1

/-- The pad in use when none is asked for. -/
def defaultPad : UInt64 := 10

/-! ## Marks in order of their steps -/

namespace Mark

/-- Put a mark behind all marks whose step is not later. -/
def place (mark : Mark) (marks : List Mark) : List Mark :=
  marks.takeWhile (fun earlier => earlier.step ≤ mark.step) ++
    mark :: marks.dropWhile (fun earlier => earlier.step ≤ mark.step)

def eraseLast (mark : Mark) (marks : List Mark) : List Mark := (marks.reverse.erase mark).reverse

def latestBefore (pair : Pair NodeName) (step : UInt64) (marks : List Mark) : Option Mark :=
  (marks.filter fun mark => mark.event.pair = pair ∧ mark.step < step).getLast?

/-- Whether an addition of a pair at a step says something new: the pair is not added at that very
step, and it is not connected before it. -/
def opensInterval (pair : Pair NodeName) (start : UInt64) (marks : List Mark) : Bool :=
  if (⟨start, .add, pair⟩ : Mark) ∈ marks then false
  else
    match latestBefore pair start marks with
    | some latest => latest.event.change = .delete
    | none => true

/-- The step at which a pair that is connected at `start` parts. -/
def closingStep? (pair : Pair NodeName) (start : UInt64) (marks : List Mark) : Option UInt64 :=
  (marks.find? fun mark => mark.event = ⟨.delete, pair⟩ ∧ start ≤ mark.step).map (·.step)

/-- Connect a pair from a step on, unless that says nothing new. -/
def connect (pair : Pair NodeName) (start : UInt64) (marks : List Mark) : List Mark :=
  if opensInterval pair start marks then place ⟨start, .add, pair⟩ marks else marks

/-- Whether a contact lies within an interval that is known already. -/
def isCovered (pair : Pair NodeName) (start stop : UInt64) (marks : List Mark) : Bool :=
  !opensInterval pair start marks && (closingStep? pair start marks).any (stop ≤ ·)

/-- Let a pair part at a step.  A deletion right before it, with no addition between, is taken out;
`none` when the pair has never been added before. -/
def part? (pair : Pair NodeName) (stop : UInt64) (marks : List Mark) : Option (List Mark) :=
  (latestBefore pair stop marks).map fun latest =>
    let kept := match latest.event.change with
      | .add => marks
      | .delete => eraseLast latest marks
    place ⟨stop, .delete, pair⟩ kept

def moments : List Mark → List Moment
  | [] => []
  | mark :: rest =>
      match moments rest with
      | moment :: later =>
          if moment.step = mark.step then ⟨moment.step, mark.event :: moment.events⟩ :: later
          else ⟨mark.step, [mark.event]⟩ :: moment :: later
      | [] => [⟨mark.step, [mark.event]⟩]

end Mark

/-! ## Contact by contact -/

namespace Merger

/-- A merger without contacts; the pad has to be positive. -/
def start (pad : UInt64) : Except Error Merger :=
  if pad = 0 then .error (.config .zeroPad) else .ok { pad }

def refusal? (merger : Merger) (contact : Contact) : Option InvariantError :=
  if contact.stop < contact.start then
    some (.reversedContact contact.pair contact.start contact.stop)
  else
    match merger.lastStart with
    | some last =>
        if contact.start < last then some (.unsortedContact contact.pair contact.start last)
        else none
    | none => none

/-- The end of a contact, later by the pad if the contact has no duration. -/
def paddedStop (merger : Merger) (contact : Contact) : UInt64 :=
  if contact.start = contact.stop then saturatingAdd contact.stop merger.pad else contact.stop

def enroll (merger : Merger) (contact : Contact) : Merger :=
  { merger with
    nodes := (merger.nodes.insert contact.observer ()).insert contact.observed ()
    lastStart := some contact.start }

/-- Take the next contact in.  What it changed before it turned out not to fit stays changed. -/
def feed (merger : Merger) (contact : Contact) : Except Error Unit × Merger :=
  match merger.refusal? contact with
  | some cause => (.error (.invariant cause), merger)
  | none =>
      let pair := contact.pair
      let stop := merger.paddedStop contact
      let enrolled := merger.enroll contact
      if Mark.isCovered pair contact.start stop merger.marks then (.ok (), enrolled)
      else
        let connected := Mark.connect pair contact.start merger.marks
        match Mark.part? pair stop connected with
        | some parted => (.ok (), { enrolled with marks := parted })
        | none =>
            (.error (.invariant (.deleteBeforeAdd pair stop)), { enrolled with marks := connected })

/-- Take contacts in up to the first one that does not fit. -/
def feedAll (merger : Merger) (contacts : List Contact) : Except Error Merger :=
  contacts.foldlM (fun current contact =>
    let (outcome, next) := current.feed contact
    outcome.map fun _ => next) merger

def timeline (merger : Merger) : Timeline := ⟨merger.nodes, Mark.moments merger.marks⟩

end Merger

/-! ## All contacts at once -/

namespace Contact

/-- Contacts in the order of their starts, then of their ends, then of their pairs. -/
def order (first second : Contact) : Ordering :=
  (compare first.start second.start).then
    ((compare first.stop second.stop).then (compare first.pair second.pair))

end Contact

namespace Timeline

def ofContacts (contacts : List Contact) (pad : UInt64) : Except Error Timeline := do
  let merger ← Merger.start pad
  let full ← merger.feedAll (contacts.mergeSort fun first second => (first.order second).isLE)
  return full.timeline

end Timeline

end ContactReplay
