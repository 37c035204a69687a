import ContactReplay.GraphStream.Reader
import ContactReplay.Replay.Rehearsal
import ContactReplay.Settings.Reader

/-!
# Benches

A bench rehearses one replay after the other.  A trial with settings of its own gets a new
conductor; any other trial uses the conductor of the trial before, and the first one gets default
settings.  The mark that a replay is cancelled belongs to its conductor: a new conductor begins
without it, and one that is used again keeps it.
-/

namespace ContactReplay

/-- What a bench is to try. -/
structure Trial where
  settings : Option String
  /-- Whether the replay is cancelled before it begins; `none` leaves that as it is. -/
  cancelled : Option Bool
  document : String
  deriving DecidableEq, Repr

/-- A rehearsal with the conductor in use. -/
structure Bench where
  rehearsal : Rehearsal
  conductor : Option Conductor := none
  settings : Settings := {}
  deriving DecidableEq, Repr

namespace Bench

/-- Read settings and make a new conductor.  If the settings cannot be read, the conductor in use
stays; if no conductor can be made of them, there is none. -/
def renew (bench : Bench) (settings : Except Error Settings) : Except Error Conductor × Bench :=
  match settings with
  | .error error => (.error error, bench)
  | .ok settings =>
      match Conductor.start settings with
      | .error error => (.error error, { bench with settings, conductor := none })
      | .ok conductor =>
          (.ok conductor, { bench with
            settings
            conductor := some conductor
            rehearsal := { bench.rehearsal with cancelled := false } })

def conductorFor (bench : Bench) (trial : Trial) : Except Error Conductor × Bench :=
  match trial.settings, bench.conductor with
  | some text, _ => bench.renew (Settings.read text)
  | none, none => bench.renew (.ok {})
  | none, some conductor => (.ok conductor, bench)

def run (bench : Bench) (trial : Trial) : Except Error Report × Bench :=
  match bench.conductorFor trial with
  | (.error error, next) => (.error error, next)
  | (.ok conductor, ready) =>
      let cancelled := trial.cancelled.getD ready.rehearsal.cancelled
      let marked := { ready with rehearsal := { ready.rehearsal with cancelled } }
      match Document.read trial.document with
      | .error error => (.error error, marked)
      | .ok document =>
          let (outcome, used, rehearsal) := marked.rehearsal.replay conductor document
          (outcome, { marked with conductor := some used, rehearsal })

end Bench

end ContactReplay
