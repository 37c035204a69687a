import ContactReplay.Proofs.Cli.Errands
import ContactReplay.Proofs.GraphStream.Writing

/-!
# What a failed compilation leaves

A compilation that fails for another reason than its files does so before there is anything to
write, or with a manuscript that cannot be written as a whole.  In the first case everything stays
as it was.  In the second the file has been made anew already, and the lines before the failure stay
in it or in the output (`Disk.Bears` says where that makes no difference): `Tool.compile_spares_iff`.
-/

namespace ContactReplay

/-- An error of a manuscript that is found before its first line. -/
def Error.precedesLines : Error → Bool
  | .config (.graphName _) | .invariant (.sharedLabel _) => true
  | _ => false

namespace GraphStream

namespace Scribe

theorem precedesLines_of_writeEntry {scribe : Scribe} {entry : Entry} {cause : InvariantError}
    (failed : scribe.writeEntry entry = .error cause) :
    (Error.invariant cause).precedesLines = false := by
  cases entry with
  | step step =>
      rw [writeEntry] at failed
      split at failed
      · cases failed
      · cases failed
        rfl
  | event event =>
      rw [writeEntry, writeEvent] at failed
      dsimp only at failed
      split at failed <;> cases failed <;> rfl

theorem precedesLines_of_writeEntries {scribe : Scribe} {entries : List Entry}
    {cause : InvariantError} (failed : (scribe.writeEntries entries).2 = .error cause) :
    (Error.invariant cause).precedesLines = false := by
  induction entries generalizing scribe with
  | nil => cases failed
  | cons entry rest inductionHypothesis =>
      cases written : scribe.writeEntry entry with
      | error sooner =>
          rw [writeEntries, written] at failed
          cases failed
          exact precedesLines_of_writeEntry written
      | ok result =>
          rw [writeEntries_cons_ok written] at failed
          exact inductionHypothesis failed

end Scribe

end GraphStream

theorem Manuscript.text_ne_empty {manuscript : Manuscript} {line : String} {rest : List String}
    (lines : manuscript.lines = line :: rest) : manuscript.text ≠ "" := by
  intro empty
  have letters := congrArg String.toList empty
  rw [text, lines, List.map_cons, String.join_cons, String.toList_append, String.toList_append]
    at letters
  simp at letters

/-- There is nothing to write exactly if the error is found before the first line. -/
theorem Timeline.text_eq_empty_iff {timeline : Timeline} {graphName : String} {error : Error}
    (failed : (timeline.manuscript graphName).outcome = .error error) :
    (timeline.manuscript graphName).text = "" ↔ error.precedesLines = true := by
  rw [manuscript] at failed ⊢
  split at failed
  · rename_i refused
    rw [if_pos refused]
    cases failed
    exact iff_of_true rfl rfl
  · rename_i token
    rw [if_neg token]
    cases shared : timeline.sharedLabel? with
    | some value =>
        rw [shared] at failed
        cases failed
        exact iff_of_true rfl rfl
    | none =>
        rw [shared] at failed
        dsimp only at failed ⊢
        refine iff_of_false (Manuscript.text_ne_empty rfl) ?_
        split at failed
        · rename_i cause stopped
          cases failed
          rw [GraphStream.Scribe.precedesLines_of_writeEntries stopped]
          exact Bool.false_ne_true
        · cases failed

namespace Cli

/-- An entry is the same after a text has been written in its place, and so is the output. -/
def Entry.Bears (text : String) : Entry → Prop
  | .directory => False
  | .file bytes => bytes = utf8 text
  | .device target => target = .output → text = ""

namespace Disk

variable {disk : Disk} {place : Place} {path text : String}

/-- A text that is written to a file in the place of what is there, or to the output, changes
nothing. -/
def Bears (disk : Disk) (text : String) : Option String → Prop
  | none => text = ""
  | some path => ∃ place entry, disk.Reserves path place ∧ disk.entry? place = some entry ∧
      entry.Bears text

theorem bears_of_input (input text : String) (out : Option String) :
    Bears { disk with input } text out ↔ disk.Bears text out :=
  Iff.rfl

theorem spared_output_iff : disk.Spared { disk with output := disk.output ++ text } ↔
    text = "" := by
  have same : disk.output ++ text = disk.output ↔ text = "" := by
    rw [← String.toList_inj, String.toList_append, List.append_right_eq_self,
      String.toList_eq_nil_iff]
  constructor
  · intro spared
    exact same.mp spared.output
  · intro empty
    exact ⟨same.mpr empty, fun _ => rfl⟩

theorem Reserves.unique {other : Place} (reserves : disk.Reserves path place)
    (reservesOther : disk.Reserves path other) : place = other :=
  Except.ok.inj (reserves.symm.trans reservesOther)

theorem Reserves.spared_put_iff (reserves : disk.Reserves path place)
    (plain : ∀ device, disk.entry? place ≠ some (.device device)) :
    disk.Spared (disk.put place (utf8 text)) ↔ disk.Bears text (some path) := by
  constructor
  · intro spared
    have held := spared.entries place
    rw [entry?_put_self] at held
    exact ⟨place, .file (utf8 text), reserves, held.symm, rfl⟩
  · rintro ⟨other, entry, alsoReserves, held, bears⟩
    cases reserves.unique alsoReserves
    cases entry with
    | directory => exact bears.elim
    | file bytes =>
        rw [show bytes = utf8 text from bears] at held
        rw [put_eq_self held]
        exact ⟨rfl, fun _ => rfl⟩
    | device device => exact absurd held (plain device)

theorem Reserves.spared_appendPlace_iff (reserves : disk.Reserves path place) {device : Device}
    (held : disk.entry? place = some (.device device)) :
    disk.Spared (disk.appendPlace place text).2 ↔ disk.Bears text (some path) := by
  have bears_iff : disk.Bears text (some path) ↔ (device = .output → text = "") := by
    constructor
    · rintro ⟨other, entry, alsoReserves, otherHeld, bears⟩
      cases reserves.unique alsoReserves
      cases held.symm.trans otherHeld
      exact bears
    · intro bears
      exact ⟨place, .device device, reserves, held, bears⟩
  rw [bears_iff, appendPlace_of_device held]
  by_cases shows : device = .output
  · rw [if_pos shows, spared_output_iff, forall_prop_of_true shows]
  · rw [if_neg shows]
    exact iff_of_true ⟨rfl, fun _ => rfl⟩ fun same => absurd same shows

end Disk

variable {disk made next after : Disk} {error : Error} {path : String}

section Publish

variable {manuscript : Manuscript}

/-- How publishing a manuscript ends if writing its lines has ended in some way. -/
def settle (manuscript : Manuscript) (written : Except Error Unit) : Except Error Tally := do
  if bufferSize < manuscript.text.utf8ByteSize then
    written
  let tally ← manuscript.outcome
  written
  return tally

theorem settle_ok (manuscript : Manuscript) : settle manuscript (.ok ()) = manuscript.outcome := by
  rw [settle]
  cases manuscript.outcome <;> split <;> rfl

/-- A failure that is not one of writing the lines is that of the manuscript. -/
theorem outcome_of_settle {written : Except DeviceError Unit}
    (failed : settle manuscript (written.mapError .device) = .error error)
    (own : error.kind ≠ .device) : manuscript.outcome = .error error := by
  cases written with
  | ok done => exact (settle_ok manuscript).symm.trans failed
  | error cause =>
      rw [settle] at failed
      cases stopped : manuscript.outcome with
      | error sooner =>
          rw [stopped] at failed
          split at failed <;> cases failed
          · exact absurd rfl own
          · rfl
      | ok tally =>
          rw [stopped] at failed
          split at failed <;> cases failed <;> exact absurd rfl own

theorem on_publish {written : Except DeviceError Unit}
    (makes : disk.createFile path = (.ok (), made))
    (appends : made.appendText path manuscript.text = (written, next)) :
    (publish manuscript (some path) : Errand (StateM Disk) Tally).on disk =
      (settle manuscript (written.mapError .device), next) := by
  have creates : (Errand.createFile path : Errand (StateM Disk) Unit).on disk = (.ok (), made) := by
    rw [Errand.on_createFile, makes]
    rfl
  have writes : (Errand.appendText path manuscript.text : Errand (StateM Disk) Unit).on made =
      (written.mapError .device, next) := by
    rw [Errand.on_appendText, appends]
  rw [publish, Errand.on_bind_of_ok creates, Errand.on_bind_of_ok (Errand.on_lift_run _ _), writes,
    settle]
  cases written <;> cases manuscript.outcome <;> split <;> rfl

/-- What keeps a manuscript from being written as a whole leaves the lines that were written. -/
theorem publish_leaves {out : Option String}
    (failed : (publish manuscript out : Errand (StateM Disk) Tally).on disk = (.error error, after))
    (own : error.kind ≠ .device) :
    manuscript.outcome = .error error ∧
      (disk.Spared after ↔ disk.Bears manuscript.text out) := by
  cases out with
  | none =>
      rw [publish, Errand.on_bind_of_ok (Errand.on_lift _ _), Errand.on_attempt] at failed
      obtain ⟨stopped, rfl⟩ := Prod.mk.inj failed
      exact ⟨stopped, Disk.spared_output_iff⟩
  | some path =>
      rcases disk.reserve_cases path with
        ⟨cause, unplaced⟩ | ⟨place, reserves, plain⟩ | ⟨place, device, reserves, held⟩
      · have refuses : (Errand.createFile path : Errand (StateM Disk) Unit).on disk =
            (.error (.device cause), disk) := by
          rw [Errand.on_createFile, Disk.createFile_of_error unplaced]
          rfl
        rw [publish, Errand.on_bind_of_error refuses] at failed
        cases failed
        exact absurd rfl own
      · rw [on_publish (reserves.createFile plain) (reserves.appendText [] _)] at failed
        obtain ⟨settled, rfl⟩ := Prod.mk.inj failed
        exact ⟨outcome_of_settle settled own, reserves.spared_put_iff plain⟩
      · let sent := disk.appendPlace place manuscript.text
        have appends : disk.appendText path manuscript.text = (sent.1, sent.2) :=
          reserves.appendText_of_device held _
        rw [on_publish (reserves.createFile_of_device held) appends] at failed
        obtain ⟨settled, rfl⟩ := Prod.mk.inj failed
        exact ⟨outcome_of_settle settled own, reserves.spared_appendPlace_iff held⟩

end Publish

/-! ## Compiling -/

/-- What the tool has to write for a trace. -/
def CompileOptions.manuscript (options : CompileOptions) (trace : String) :
    Except Error Manuscript := do
  let contacts ← Contact.readTrace trace
  let timeline ← Timeline.ofContacts contacts options.pad
  return timeline.manuscript options.graphName

variable {options : CompileOptions} {trace : String}

/-- A manuscript is that of a timeline. -/
theorem exists_of_manuscript {manuscript : Manuscript}
    (prepared : options.manuscript trace = .ok manuscript) :
    ∃ timeline : Timeline, manuscript = timeline.manuscript options.graphName := by
  rw [CompileOptions.manuscript] at prepared
  obtain ⟨contacts, -, merged⟩ := bind_eq_ok_iff.mp prepared
  obtain ⟨timeline, -, written⟩ := bind_eq_ok_iff.mp merged
  exact ⟨timeline, (Except.ok.inj written).symm⟩

/-- A compilation makes a manuscript of the trace and publishes it. -/
theorem on_compile (read : disk.readText options.contacts = (.ok trace, next)) :
    (compile options : Errand (StateM Disk) Tally).on disk =
      (Errand.attempt (options.manuscript trace) >>= fun manuscript =>
        publish manuscript options.out : Errand (StateM Disk) Tally).on next := by
  have reads : (Errand.readText options.contacts : Errand (StateM Disk) String).on disk =
      (.ok trace, next) := by
    rw [Errand.on_readText, read]
    rfl
  rw [compile, Errand.on_bind_of_ok reads, CompileOptions.manuscript]
  cases Contact.readTrace trace with
  | error cause => rfl
  | ok contacts =>
      rw [Errand.on_bind_of_ok (Errand.on_attempt _ _)]
      change _ = (Errand.attempt (Timeline.ofContacts contacts options.pad >>= _) >>= _ :
        Errand (StateM Disk) Tally).on next
      cases Timeline.ofContacts contacts options.pad with
      | error cause => rfl
      | ok timeline => rfl

/-- A trace that cannot be read is a failure of its file. -/
theorem exists_trace (failed : (compile options : Errand (StateM Disk) Tally).on disk =
    (.error error, after)) (own : error.kind ≠ .device) :
    ∃ trace input, disk.readText options.contacts = (.ok trace, { disk with input }) := by
  obtain ⟨outcome, input, read⟩ := disk.exists_readText options.contacts
  cases outcome with
  | ok trace => exact ⟨trace, input, read⟩
  | error cause =>
      have fails : (Errand.readText options.contacts : Errand (StateM Disk) String).on disk =
          (.error (.device cause), { disk with input }) := by
        rw [Errand.on_readText, read]
        rfl
      rw [compile, Errand.on_bind_of_error fails] at failed
      cases failed
      exact absurd rfl own

/-- A compilation that fails for another reason than its files has no manuscript and leaves
everything as it was, or it leaves the lines of its manuscript. -/
theorem compile_leaves (failed : (compile options : Errand (StateM Disk) Tally).on disk =
    (.error error, after)) (own : error.kind ≠ .device) :
    ∃ trace, (disk.readText options.contacts).1 = .ok trace ∧
      ((options.manuscript trace = .error error ∧ disk.Spared after) ∨
        ∃ manuscript, options.manuscript trace = .ok manuscript ∧
          manuscript.outcome = .error error ∧
          (manuscript.text = "" ↔ error.precedesLines = true) ∧
          (disk.Spared after ↔ disk.Bears manuscript.text options.out)) := by
  obtain ⟨trace, input, read⟩ := exists_trace failed own
  rw [on_compile read] at failed
  cases prepared : options.manuscript trace with
  | error cause =>
      rw [prepared, Errand.on_bind_of_error (Errand.on_attempt _ _)] at failed
      cases failed
      exact ⟨trace, by rw [read], Or.inl ⟨prepared, rfl, fun _ => rfl⟩⟩
  | ok manuscript =>
      rw [prepared, Errand.on_bind_of_ok (Errand.on_attempt _ _)] at failed
      obtain ⟨stopped, spared⟩ := publish_leaves failed own
      obtain ⟨timeline, rfl⟩ := exists_of_manuscript prepared
      rw [Disk.spared_of_input, Disk.bears_of_input] at spared
      exact ⟨trace, by rw [read],
        Or.inr ⟨_, prepared, stopped, Timeline.text_eq_empty_iff stopped, spared⟩⟩

/-- A compilation that ends with an error for another reason than its files leaves everything as it
was if the trace cannot be merged.  Otherwise it does so exactly if its lines make no difference
where they are written; there are none if the name of the graph or a label is refused. -/
theorem Tool.compile_spares_iff {arguments : List String}
    (ran : Tool.compile.on arguments disk = (1, after))
    (reported : after.errors = disk.errors ++ [error]) (own : error.kind ≠ .device) :
    ∃ options trace, CompileOptions.read arguments = .ok options ∧
      (disk.readText options.contacts).1 = .ok trace ∧
      ((options.manuscript trace = .error error ∧ disk.Spared after) ∨
        ∃ manuscript, options.manuscript trace = .ok manuscript ∧
          manuscript.outcome = .error error ∧
          (manuscript.text = "" ↔ error.precedesLines = true) ∧
          (disk.Spared after ↔ disk.Bears manuscript.text options.out)) := by
  rw [Tool.on, Tool.run] at ran
  cases asked : CompileOptions.read arguments with
  | error stop =>
      rw [asked] at ran
      cases stop <;> cases (Prod.mk.inj ran).1
  | ok options =>
      rw [asked] at ran
      dsimp only at ran
      rcases outcome : (Cli.compile options : Errand (StateM Disk) Tally).on disk with
        ⟨tally | cause, left⟩
      · rw [conclude_of_error outcome] at ran
        obtain ⟨-, rfl⟩ := Prod.mk.inj ran
        obtain ⟨-, same⟩ := List.append_inj' reported rfl
        obtain rfl := List.singleton_inj.mp same
        obtain ⟨trace, read, leaves⟩ := compile_leaves outcome own
        simp only [Disk.spared_report]
        exact ⟨options, trace, rfl, read, leaves⟩
      · rw [conclude_of_ok outcome] at ran
        cases (Prod.mk.inj ran).1

/-- A timeline from step zero to the last step cannot be shifted; the lines before the last step go
to the output. -/
theorem Tool.compile_spares_iff_unshiftable :
    let disk := Disk.withFiles ["work"] ["work"]
      [("c.tsv", utf8 "a\tb\t0\t18446744073709551615\n")]
    let arguments := ["--contacts", "c.tsv"]
    let error := Error.invariant (.unshiftableStep 18446744073709551615)
    let ended := Tool.compile.on arguments disk
    ended.1 = 1 ∧ ended.2.errors = disk.errors ++ [error] ∧ error.kind ≠ .device ∧
      ended.2.output = "DGS004\ncontacts 3 4\nst 0\nan a\nan b\nst 1\nae e0 a b\n" ∧
      ∃ options trace, CompileOptions.read arguments = .ok options ∧
        (disk.readText options.contacts).1 = .ok trace ∧
        ((options.manuscript trace = .error error ∧ disk.Spared ended.2) ∨
          ∃ manuscript, options.manuscript trace = .ok manuscript ∧
            manuscript.outcome = .error error ∧
            (manuscript.text = "" ↔ error.precedesLines = true) ∧
            (disk.Spared ended.2 ↔ disk.Bears manuscript.text options.out)) := by
  intro disk arguments error ended
  have failed : ended.1 = 1 := by decide +kernel
  have reported : ended.2.errors = disk.errors ++ [error] := by decide +kernel
  have own : error.kind ≠ .device := by decide
  exact ⟨failed, reported, own, by decide +kernel,
    Tool.compile_spares_iff (Prod.ext failed rfl) reported own⟩

/-- A file that is there is empty after a compilation that refuses the name of the graph. -/
theorem Tool.exists_compile_not_spares :
    let disk := Disk.withFiles ["work"] ["work"]
      [("c.tsv", utf8 "a\tb\t1\t2\n"), ("o.dgs", utf8 "old\n")]
    let ended := Tool.compile.on
      ["--contacts", "c.tsv", "--out", "o.dgs", "--graph-name", "a b"] disk
    ended.1 = 1 ∧ ended.2.errors = disk.errors ++ [.config (.graphName "a b")] ∧
      disk.entry? ["work", "o.dgs"] = some (.file (utf8 "old\n")) ∧
      Disk.entry? ended.2 ["work", "o.dgs"] = some (.file []) ∧ ¬disk.Spared ended.2 := by
  intro disk ended
  have before : disk.entry? ["work", "o.dgs"] = some (.file (utf8 "old\n")) := by decide +kernel
  have emptied : Disk.entry? ended.2 ["work", "o.dgs"] = some (.file []) := by decide +kernel
  refine ⟨by decide +kernel, by decide +kernel, before, emptied, fun spared => ?_⟩
  have same := spared.entries ["work", "o.dgs"]
  rw [before, emptied] at same
  revert same
  decide

end Cli

end ContactReplay
