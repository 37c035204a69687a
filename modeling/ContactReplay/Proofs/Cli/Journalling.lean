import ContactReplay.Proofs.Cli.Errands
import ContactReplay.Proofs.Replay.Answering
import ContactReplay.Proofs.Replay.Asking
import ContactReplay.Proofs.Testbed.Journal

/-!
# The journal of a replay

A tool that replays a graph stream reads everything first (`load`), which changes nothing, and then
plays the replay and writes the journal (`perform`).  On a disk it plays like a rehearsal in which
nothing goes wrong (`exists_run_play`), so the log of the testbed is what the testbed has accepted
of the requests of the replay (`Testbed.accepted`).

A run asks only for links that carry everything or nothing, so the journal is read back as the array
of what has been accepted and is that of no other log.

`Journals` says how such a tool ends, and `Tool.replay_journals` that it ends so for all texts and
options.
-/

namespace ContactReplay

/-! ## Accepted requests -/

theorem Order.switches_call {order : Order} (switches : order.Switches) (session : SessionId) :
    (order.call session).Switches := by
  intro loss told
  cases order with
  | addLink link =>
      obtain rfl : link.loss = loss := Option.some.inj told
      exact Or.inr switches
  | adjustLink adjustment =>
      obtain rfl : adjustment.loss = loss := Option.some.inj told
      exact switches
  | _ => cases told

namespace Testbed

/-- The lines of the requests that a testbed accepts when it is sent some one after the other. -/
def accepted (testbed : Testbed) : List Request → List Call
  | [] => []
  | request :: rest =>
      let served := testbed.serve request
      (Exchange.call? ⟨.request request, served.1⟩).toList ++ served.2.accepted rest

/-- The log of a testbed is what it has accepted. -/
theorem calls_serveAll (testbed : Testbed) (requests : List Request) :
    (testbed.serveAll requests).calls = testbed.calls ++ testbed.accepted requests := by
  induction requests generalizing testbed with
  | nil => exact (List.append_nil _).symm
  | cons request rest inductionHypothesis =>
      have first : (testbed.serveAll (request :: rest)) =
          ((testbed.serve request).2).serveAll rest := rfl
      rw [first, inductionHypothesis, calls_serve, List.append_assoc]
      rfl

theorem switches_accepted {requests : List Request}
    (switches : ∀ request ∈ requests, (Ask.request request).Switches) (testbed : Testbed) :
    ∀ call ∈ testbed.accepted requests, call.Switches := by
  induction requests generalizing testbed with
  | nil => exact List.forall_mem_nil _
  | cons request rest inductionHypothesis =>
      obtain ⟨first, others⟩ := List.forall_mem_cons.mp switches
      refine List.forall_mem_append.mpr ⟨fun call told => ?_, inductionHypothesis others _⟩
      have line := Option.mem_toList.mp told
      rcases served : (testbed.serve request).1 with cause | reply
      · rw [served] at line
        cases request <;> cases line
      · rw [served] at line
        cases request with
        | createSession =>
            obtain rfl : .createSession reply = call := Option.some.inj line
            exact nofun
        | order session order =>
            obtain rfl : order.call session = call := Option.some.inj line
            exact Order.switches_call first session

end Testbed

/-! ## Rehearsals without faults -/

namespace Rehearsal

/-- Nothing goes wrong in a rehearsal but what its testbed refuses. -/
structure Quiet (rehearsal : Rehearsal) : Prop where
  faults : rehearsal.faults = {}
  going : rehearsal.cancelled = false

theorem Quiet.answer {rehearsal : Rehearsal} (quiet : rehearsal.Quiet) (question : Ask) :
    (Rehearsal.answer question rehearsal).2.Quiet := by
  obtain ⟨testbed, faults, cancelled, asked⟩ := rehearsal
  obtain ⟨rfl, rfl⟩ := quiet
  cases question with
  | request request => exact ⟨rfl, rfl⟩
  | pause duration => exact ⟨rfl, rfl⟩
  | confirm prompt => exact ⟨rfl, rfl⟩
  | isCancelled => exact ⟨rfl, rfl⟩

theorem requests_answer (rehearsal : Rehearsal) (question : Ask) :
    (answer question rehearsal).2.requests =
      rehearsal.requests ++ [question].filterMap fun
        | .request request => some request
        | _ => none := by
  rw [requests, asked_answer, List.filterMap_append]
  rfl

end Rehearsal

namespace Cli

variable {α : Type}

/-- A tool answers a question like a rehearsal without faults; all that it shows are prompts. -/
theorem exists_run_answer (noWait : Bool) (question : Ask) {rehearsal : Rehearsal}
    (quiet : rehearsal.Quiet) (disk : Disk) :
    ∃ requests prompts,
      ((answer noWait question : StateT Testbed (StateM Disk) question.Reply).run
          rehearsal.testbed).run disk =
        (((Rehearsal.answer question rehearsal).1, (Rehearsal.answer question rehearsal).2.testbed),
          { disk with prompts }) ∧
      (Rehearsal.answer question rehearsal).2.requests = rehearsal.requests ++ requests ∧
      (Rehearsal.answer question rehearsal).2.testbed = rehearsal.testbed.serveAll requests := by
  have asks := rehearsal.requests_answer question
  obtain ⟨testbed, faults, cancelled, asked⟩ := rehearsal
  obtain ⟨rfl, rfl⟩ := quiet
  cases question with
  | request request => exact ⟨[request], disk.prompts, rfl, asks, rfl⟩
  | pause duration => cases noWait <;> exact ⟨[], disk.prompts, rfl, asks, rfl⟩
  | confirm prompt =>
      cases noWait with
      | true => exact ⟨[], disk.prompts, rfl, asks, rfl⟩
      | false => exact ⟨[], disk.prompts ++ [prompt], rfl, asks, rfl⟩
  | isCancelled => exact ⟨[], disk.prompts, rfl, asks, rfl⟩

/-- A tool plays a script like a rehearsal without faults. -/
theorem exists_run_play (noWait : Bool) (script : Script α) {rehearsal : Rehearsal}
    (quiet : rehearsal.Quiet) (disk : Disk) :
    ∃ requests prompts,
      ((script.play (answer noWait) : StateT Testbed (StateM Disk) α).run
          rehearsal.testbed).run disk =
        ((((script.play Rehearsal.answer).run rehearsal).1,
          ((script.play Rehearsal.answer).run rehearsal).2.testbed), { disk with prompts }) ∧
      ((script.play Rehearsal.answer).run rehearsal).2.requests =
        rehearsal.requests ++ requests ∧
      ((script.play Rehearsal.answer).run rehearsal).2.testbed =
        rehearsal.testbed.serveAll requests := by
  induction script generalizing rehearsal disk with
  | done result => exact ⟨[], disk.prompts, rfl, (List.append_nil _).symm, rfl⟩
  | ask question next inductionHypothesis =>
      obtain ⟨asked, shown, answers, asks, serves⟩ :=
        exists_run_answer noWait question quiet disk
      obtain ⟨later, prompts, plays, laterAsks, laterServes⟩ := inductionHypothesis
        (Rehearsal.answer question rehearsal).1 (quiet.answer question)
        { disk with prompts := shown }
      refine ⟨asked ++ later, prompts, ?_, ?_, ?_⟩
      · rw [Script.run_play_ask, ← plays, Script.play, StateT.run_bind, StateT.run_bind, answers]
        rfl
      · rw [Script.run_play_ask, laterAsks, asks, List.append_assoc]
      · rw [Script.run_play_ask, laterServes, serves, Testbed.serveAll_append]

/-! ## Loading -/

/-- What is read before a replay begins. -/
structure Loaded where
  conductor : Conductor
  document : Document
  /-- The files that every node begins with. -/
  files : Table FileName String

namespace Loaded

variable (loaded : Loaded)

def testbed : Testbed := .fresh loaded.files

/-- The replay with nothing going wrong but what the testbed refuses. -/
def rehearsed : Except Error Report × Conductor × Rehearsal :=
  ({ testbed := loaded.testbed } : Rehearsal).replay loaded.conductor loaded.document

/-- How the replay ends. -/
def outcome : Except Error Report := loaded.rehearsed.1

/-- What the testbed accepts during the replay. -/
def accepted : List Call := loaded.testbed.accepted loaded.rehearsed.2.2.requests

theorem switches_accepted : ∀ call ∈ loaded.accepted, call.Switches := by
  refine Testbed.switches_accepted (fun request among => ?_) loaded.testbed
  obtain ⟨question, asked, same⟩ := List.mem_filterMap.mp among
  have asks : loaded.rehearsed.2.2.asked =
      (loaded.conductor.script loaded.document).asks { testbed := loaded.testbed } :=
    Script.asked_play _ _
  rw [asks] at asked
  have switches :=
    (Conductor.switches_run loaded.document loaded.conductor).of_mem_asks question asked
  cases question with
  | request other =>
      obtain rfl := Option.some.inj same
      exact switches
  | _ => cases same

end Loaded

/-- Read the settings, the document and the template. -/
def load (options : ReplayOptions) : Errand (StateM Disk) Loaded := do
  let settings ← loadSettings options
  let document ← Errand.attempt (Document.read (← Errand.readText options.document))
  let template ← match options.template with
    | some path => Errand.readText path
    | none => pure ""
  let conductor ← Errand.attempt (Conductor.start settings)
  return ⟨conductor, document,
    .ofList [(Conductor.configName settings, template)]⟩

/-- Replay what has been read and keep the journal. -/
def perform (options : ReplayOptions) (loaded : Loaded) : Errand (StateM Disk) Report := do
  let (outcome, used) ← ExceptT.lift
    (play options.noWait loaded.conductor loaded.document loaded.testbed)
  let kept ← ExceptT.lift <| ExceptT.run <| match options.journal with
    | some path => keepJournal path used
    | none => pure ()
  let report ← Errand.attempt outcome
  Errand.attempt kept
  return report

theorem replay_eq (options : ReplayOptions) :
    (replay options : Errand (StateM Disk) Report) = load options >>= perform options := by
  cases template : options.template <;>
    simp only [replay, load, template, bind_assoc, pure_bind] <;> rfl

theorem onlyReads_loadSettings (options : ReplayOptions) :
    (loadSettings options : Errand (StateM Disk) Settings).OnlyReads := by
  have overlays (base : Settings) : Errand.OnlyReads (do
      let settings ← Errand.attempt (options.overlay base)
      Errand.attempt (settings.check.mapError .config)
      return settings) :=
    (Errand.onlyReads_attempt _).bind fun settings =>
      (Errand.onlyReads_attempt _).bind fun _ => Errand.onlyReads_pure settings
  rw [loadSettings]
  cases options.settings with
  | none => exact (Errand.onlyReads_pure _).bind overlays
  | some path =>
      refine (Errand.onlyReads_readText path).bind fun text => ?_
      refine (Errand.onlyReads_attempt _).bind fun settings => ?_
      exact (Errand.onlyReads_attempt _).bind fun _ => (Errand.onlyReads_pure settings).bind overlays

theorem onlyReads_load (options : ReplayOptions) : (load options).OnlyReads := by
  rw [load]
  refine (onlyReads_loadSettings options).bind fun settings => ?_
  refine (Errand.onlyReads_readText _).bind fun text => ?_
  refine (Errand.onlyReads_attempt _).bind fun document => ?_
  cases options.template with
  | none =>
      refine (Errand.onlyReads_pure _).bind fun template => ?_
      exact (Errand.onlyReads_attempt _).bind fun conductor => Errand.onlyReads_pure _
  | some path =>
      refine (Errand.onlyReads_readText path).bind fun template => ?_
      exact (Errand.onlyReads_attempt _).bind fun conductor => Errand.onlyReads_pure _

/-! ## Replaying -/

theorem exists_on_play (noWait : Bool) (loaded : Loaded) (disk : Disk) :
    ∃ used prompts, Errand.on (ExceptT.lift
        (play noWait loaded.conductor loaded.document loaded.testbed)) disk =
        (.ok (loaded.outcome, used), { disk with prompts }) ∧
      used.calls = loaded.accepted := by
  have quiet : Rehearsal.Quiet { testbed := loaded.testbed } := ⟨rfl, rfl⟩
  obtain ⟨requests, prompts, plays, asks, serves⟩ :=
    exists_run_play noWait (loaded.conductor.script loaded.document) quiet disk
  refine ⟨loaded.rehearsed.2.2.testbed, prompts, ?_, ?_⟩
  · rw [Errand.on_lift, play, StateT.run_bind]
    rw [plays]
    rfl
  · have asked : loaded.rehearsed.2.2.requests = requests := asks.trans (List.nil_append _)
    have served : loaded.rehearsed.2.2.testbed = loaded.testbed.serveAll requests := serves
    rw [served, Loaded.accepted, asked, Testbed.calls_serveAll]
    rfl

/-- The disk after a journal has been written to a path; a failure to do so is reported. -/
def Disk.keep (disk : Disk) (path text : String) : Disk :=
  match disk.write path text with
  | (.ok _, next) => next
  | (.error cause, next) => { next with errors := next.errors ++ [.device cause] }

theorem Disk.entry?_keep (disk : Disk) (path text : String) (place : Place) :
    Disk.entry? (disk.keep path text) place = Disk.entry? (disk.write path text).2 place := by
  rw [keep]
  rcases disk.write path text with ⟨cause | done, next⟩ <;> rfl

theorem Disk.exists_errors_keep (disk : Disk) (path text : String) :
    ∃ sooner, (disk.keep path text).errors = disk.errors ++ sooner := by
  obtain ⟨entries, output, written⟩ := disk.exists_write path text
  rw [keep]
  rcases ended : disk.write path text with ⟨cause | done, next⟩
  · rw [ended] at written
    exact ⟨[.device cause], by rw [show next = _ from written]⟩
  · rw [ended] at written
    exact ⟨[], by rw [show next = _ from written, List.append_nil]⟩

theorem on_keepJournal (path : String) (testbed : Testbed) (disk : Disk) :
    (keepJournal path testbed : Errand (StateM Disk) Unit).on disk =
      ((disk.write path (journalText testbed.calls)).1.mapError .device,
        disk.keep path (journalText testbed.calls)) := by
  have writes := Errand.on_writeText path (journalText testbed.calls) disk
  rw [keepJournal, Disk.keep]
  rcases written : disk.write path (journalText testbed.calls) with ⟨cause | done, next⟩
  · rw [written] at writes
    rw [Errand.on_tryCatch_of_error writes]
    rfl
  · rw [written] at writes
    rw [Errand.on_tryCatch_of_ok writes]
    rfl

/-- The journal is written when the replay has ended.  The replay's failure goes before a failure to
write it. -/
theorem exists_on_perform {options : ReplayOptions} {path : String}
    (wanted : options.journal = some path) (loaded : Loaded) (disk : Disk) :
    ∃ prompts, (perform options loaded).on disk =
      ((do
        let report ← loaded.outcome
        (Disk.write { disk with prompts } path (journalText loaded.accepted)).1.mapError .device
        return report),
        Disk.keep { disk with prompts } path (journalText loaded.accepted)) := by
  obtain ⟨used, prompts, plays, calls⟩ := exists_on_play options.noWait loaded disk
  refine ⟨prompts, ?_⟩
  rw [perform, Errand.on_bind_of_ok plays, wanted]
  dsimp only
  rw [Errand.on_bind_of_ok (Errand.on_lift_run _ _), on_keepJournal, calls]
  cases loaded.outcome with
  | error error => rfl
  | ok report =>
      rw [Errand.on_bind_of_ok (Errand.on_attempt _ _)]
      cases (Disk.write { disk with prompts } path (journalText loaded.accepted)).1 with
      | error cause => rfl
      | ok done => rfl

/-! ## Concluding -/

/-- How the tool ends when the replay and the writing of its journal have ended. -/
def concluded (kept : Disk) : Except Error Report → Except DeviceError Unit → UInt32 × Disk
  | .ok report, .ok _ => (0, { kept with output := kept.output ++ (reportLine report ++ "\n") })
  | .ok _, .error cause => (1, { kept with errors := kept.errors ++ [.device cause] })
  | .error error, _ => (1, { kept with errors := kept.errors ++ [error] })

section Concluded

variable (kept : Disk) (outcome : Except Error Report) (written : Except DeviceError Unit)

theorem entry?_concluded (place : Place) :
    Disk.entry? (concluded kept outcome written).2 place = kept.entry? place := by
  cases outcome <;> cases written <;> rfl

theorem concluded_eq_zero_iff : (concluded kept outcome written).1 = 0 ↔
    (∃ report, outcome = .ok report) ∧ written = .ok () := by
  cases outcome <;> cases written <;> simp [concluded]

end Concluded

variable {arguments : List String} {options : ReplayOptions} {path : String}

theorem Tool.on_replay_of_error (asked : ReplayOptions.read arguments = .ok options)
    {disk next : Disk} {error : Error} (failed : (load options).on disk = (.error error, next)) :
    Tool.replay.on arguments disk = (1, { next with errors := next.errors ++ [error] }) := by
  have fails : (Cli.replay options : Errand (StateM Disk) Report).on disk = (.error error, next) := by
    rw [replay_eq, Errand.on_bind_of_error failed]
  rw [Tool.on, Tool.run, asked]
  exact conclude_of_error fails _

/-- If everything can be read, the replay is played and the journal written. -/
theorem Tool.exists_on_replay (asked : ReplayOptions.read arguments = .ok options)
    (wanted : options.journal = some path) {disk : Disk} {loaded : Loaded} {input : String}
    (loads : (load options).on disk = (.ok loaded, { disk with input })) :
    ∃ prompts, Tool.replay.on arguments disk =
      concluded (Disk.keep { disk with input, prompts } path (journalText loaded.accepted))
        loaded.outcome (disk.write path (journalText loaded.accepted)).1 := by
  obtain ⟨prompts, performs⟩ := exists_on_perform wanted loaded { disk with input }
  refine ⟨prompts, ?_⟩
  have ends : (Cli.replay options : Errand (StateM Disk) Report).on disk =
      ((do
        let report ← loaded.outcome
        (disk.write path (journalText loaded.accepted)).1.mapError .device
        return report),
        Disk.keep { disk with input, prompts } path (journalText loaded.accepted)) := by
    rw [replay_eq, Errand.on_bind_of_ok loads, ← disk.outcome_write path _ input prompts]
    exact performs
  rw [Tool.on, Tool.run, asked]
  dsimp only
  cases outcome : loaded.outcome with
  | error error =>
      rw [outcome] at ends
      exact conclude_of_error ends _
  | ok report =>
      cases written : (disk.write path (journalText loaded.accepted)).1 with
      | error cause =>
          rw [outcome, written] at ends
          exact conclude_of_error ends _
      | ok done =>
          rw [outcome, written] at ends
          exact conclude_of_ok ends _

/-- How a replay ends for which everything has been read, if it keeps a journal at a path. -/
structure Journals (loaded : Loaded) (path : String) (disk : Disk) (ended : UInt32 × Disk) :
    Prop where
  /-- A file that can be made holds what the testbed has accepted. -/
  file : ∀ place, disk.Reserves path place →
    (∀ device, disk.entry? place ≠ some (.device device)) →
      (disk.write path (journalText loaded.accepted)).1 = .ok () ∧
        Disk.entry? ended.2 place = some (.file (utf8 (journalText loaded.accepted)))
  /-- This is a text of the array of these calls, in order. -/
  told : Json.read? (journalText loaded.accepted) =
    some (.array (loaded.accepted.map (Call.toJson Loss.toJson)))
  /-- It is the text of no other calls whose links carry everything or nothing. -/
  only : ∀ calls, (∀ call ∈ calls, call.Switches) →
    journalText calls = journalText loaded.accepted → calls = loaded.accepted
  /-- No other place is written to. -/
  others : ∀ place, ¬disk.Reserves path place → Disk.entry? ended.2 place = disk.entry? place
  /-- The tool succeeds exactly if the replay does and the journal can be written. -/
  succeeds : ended.1 = 0 ↔ (∃ report, loaded.outcome = .ok report) ∧
    (disk.write path (journalText loaded.accepted)).1 = .ok ()
  /-- The failure of the replay is reported last, whether the journal can be written or not. -/
  replayFails : ∀ error, loaded.outcome = .error error →
    ended.1 = 1 ∧ ∃ sooner, ended.2.errors = disk.errors ++ sooner ++ [error]
  /-- Otherwise the failure to write the journal is reported last. -/
  journalFails : ∀ report cause, loaded.outcome = .ok report →
    (disk.write path (journalText loaded.accepted)).1 = .error cause →
      ended.1 = 1 ∧ ∃ sooner, ended.2.errors = disk.errors ++ sooner ++ [.device cause]

theorem journals_concluded (loaded : Loaded) (path : String) (disk : Disk) (input : String)
    (prompts : List Prompt) : Journals loaded path disk
      (concluded (Disk.keep { disk with input, prompts } path (journalText loaded.accepted))
        loaded.outcome (disk.write path (journalText loaded.accepted)).1) where
  file place reserves plain := by
    have alsoReserves : Disk.Reserves { disk with input, prompts } path place := reserves
    refine ⟨by rw [reserves.write plain], ?_⟩
    rw [entry?_concluded, Disk.entry?_keep, alsoReserves.write plain, Disk.entry?_put_self]
  told := read?_journalText loaded.switches_accepted
  only _ switches same := eq_of_journalText switches loaded.switches_accepted same
  others place unasked := by
    have alsoUnasked : ¬Disk.Reserves { disk with input, prompts } path place := unasked
    rw [entry?_concluded, Disk.entry?_keep, Disk.entry?_write _ _ _ alsoUnasked]
    rfl
  succeeds := concluded_eq_zero_iff _ _ _
  replayFails error failed := by
    obtain ⟨sooner, reported⟩ := Disk.exists_errors_keep { disk with input, prompts } path
      (journalText loaded.accepted)
    rw [failed, concluded]
    exact ⟨rfl, sooner, by rw [reported]⟩
  journalFails report cause done failed := by
    obtain ⟨sooner, reported⟩ := Disk.exists_errors_keep { disk with input, prompts } path
      (journalText loaded.accepted)
    rw [done, failed, concluded]
    exact ⟨rfl, sooner, by rw [reported]⟩

/-- The journal of a replay is the array of what the testbed has accepted, in order, whether the
replay succeeds or not; if something cannot be read, nothing is replayed and no journal is
written. -/
theorem Tool.replay_journals (asked : ReplayOptions.read arguments = .ok options)
    (wanted : options.journal = some path) {disk : Disk} {ended : UInt32 × Disk}
    (ran : Tool.replay.on arguments disk = ended) :
    (∀ error, ((load options).on disk).1 = .error error →
      ended.1 = 1 ∧ ended.2.errors = disk.errors ++ [error] ∧ disk.Spared ended.2) ∧
    ∀ loaded, ((load options).on disk).1 = .ok loaded → Journals loaded path disk ended := by
  obtain ⟨outcome, input, loads⟩ := onlyReads_load options disk
  refine ⟨fun error failed => ?_, fun loaded done => ?_⟩
  · have stops : outcome = .error error := (congrArg Prod.fst loads).symm.trans failed
    rw [stops] at loads
    rw [← ran, Tool.on_replay_of_error asked loads]
    exact ⟨rfl, rfl, rfl, fun _ => rfl⟩
  · have goesOn : outcome = .ok loaded := (congrArg Prod.fst loads).symm.trans done
    rw [goesOn] at loads
    obtain ⟨prompts, ends⟩ := Tool.exists_on_replay asked wanted loads
    rw [← ran, ends]
    exact journals_concluded loaded path disk input prompts

/-- A replay that deletes an edge which is not up: it fails, and the journal is the array of all
that has been accepted before. -/
theorem Tool.replay_journals_deletion :
    let arguments := ["--dgs", "g.dgs", "--no-wait", "--journal", "j.json"]
    let options : ReplayOptions :=
      { document := "g.dgs", noWait := true, journal := some "j.json" }
    let disk := Disk.withFiles ["work"] ["work"]
      [("g.dgs", utf8 "DGS004\ng 2 1\nst 0\nan a\nst 1\nde e0\n")]
    let ended := Tool.replay.on arguments disk
    let text :=
      "[\n  \x7b\n    \"call\": \"create_session\",\n    \"session\": 1\n  \x7d,\n" ++
      "  \x7b\n    \"call\": \"set_session_state\",\n    \"session\": 1,\n" ++
      "    \"state\": \"configuration\"\n  \x7d,\n" ++
      "  \x7b\n    \"call\": \"set_session_state\",\n    \"session\": 1,\n" ++
      "    \"state\": \"instantiation\"\n  \x7d\n]"
    ReplayOptions.read arguments = .ok options ∧ options.journal = some "j.json" ∧
      (((load options).on disk).1.map Loaded.accepted).toOption =
        some [.createSession 1, .setMode 1 .configuration, .setMode 1 .instantiation] ∧
      Disk.entry? ended.2 ["work", "j.json"] = some (.file (utf8 text)) ∧
      ended.2.errors = [.invariant (.deleteWithoutAdd "e0" 6 1)] ∧
      (∀ error, ((load options).on disk).1 = .error error →
        ended.1 = 1 ∧ ended.2.errors = disk.errors ++ [error] ∧ disk.Spared ended.2) ∧
      ∀ loaded, ((load options).on disk).1 = .ok loaded →
        Journals loaded "j.json" disk ended := by
  intro arguments options disk ended text
  have asked : ReplayOptions.read arguments = .ok options := by decide +kernel
  have wanted : options.journal = some "j.json" := rfl
  have accepted : (((load options).on disk).1.map Loaded.accepted).toOption =
      some [.createSession 1, .setMode 1 .configuration, .setMode 1 .instantiation] := by
    decide +kernel
  have written : Disk.entry? ended.2 ["work", "j.json"] = some (.file (utf8 text)) := by
    decide +kernel
  have reported : ended.2.errors = [.invariant (.deleteWithoutAdd "e0" 6 1)] := by decide +kernel
  have ran : Tool.replay.on arguments disk = ended := rfl
  exact ⟨asked, wanted, accepted, written, reported, Tool.replay_journals asked wanted ran⟩

end Cli

end ContactReplay
