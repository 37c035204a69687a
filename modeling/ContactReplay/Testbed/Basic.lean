import ContactReplay.Testbed.Session

/-!
# Testbeds

A `Testbed` holds its sessions and a log of the requests that it has served.  `Testbed.serve` takes
one request: a served request changes its own session and adds one line to the log, and a refused
request changes nothing at all.
-/

namespace ContactReplay

/-- A testbed in memory. -/
structure Testbed where
  nextSession : Counter := ⟨1⟩
  sessions : Table SessionId Session := ∅
  /-- The files that every new node gets. -/
  serviceFiles : Table FileName String := ∅
  calls : List Call := []
  deriving DecidableEq, Repr

namespace Testbed

def session? (testbed : Testbed) (id : SessionId) : Option Session := testbed.sessions.get? id

/-- A session that can still be used. -/
def usable (testbed : Testbed) (id : SessionId) : Except Refusal Session :=
  match testbed.session? id with
  | none => .error (.unknownSession id)
  | some session => if session.tornDown then .error (.tornDown id) else .ok session

def carryOut (testbed : Testbed) (id : SessionId) (order : Order) :
    Except Refusal (order.Reply × Testbed) := do
  let session ← testbed.usable id
  let (reply, next) ← session.carryOut testbed.serviceFiles order
  return (reply, { testbed with
    sessions := testbed.sessions.insert id next
    calls := testbed.calls ++ [order.call id] })

def createSession (testbed : Testbed) : SessionId × Testbed :=
  let id := testbed.nextSession.next
  (id, { testbed with
    nextSession := testbed.nextSession.advance
    sessions := testbed.sessions.insert id {}
    calls := testbed.calls ++ [.createSession id] })

def serve (testbed : Testbed) : (request : Request) → Except Error request.Reply × Testbed
  | .createSession =>
      let (id, next) := testbed.createSession
      (.ok id, next)
  | .order id order =>
      match testbed.carryOut id order with
      | .ok (reply, next) => (.ok reply, next)
      | .error cause => (.error (.refused order.method cause), testbed)

end Testbed

end ContactReplay
