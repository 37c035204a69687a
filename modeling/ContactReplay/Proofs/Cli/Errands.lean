import ContactReplay.Cli.Tool
import ContactReplay.Proofs.Cli.Files

/-!
# Errands on a disk

`Errand.on` carries an errand out on a disk in memory and `Tool.on` does so with a tool.  Every way
to put errands together has a law that says what it does on a disk, so that a tool can be followed
step by step.
-/

namespace ContactReplay.Cli

namespace Errand

variable {α β : Type} {disk next : Disk} {errand : Errand (StateM Disk) α}
  {rest : α → Errand (StateM Disk) β}

/-- The outcome of an errand on a disk, and the disk after it. -/
def on (errand : Errand (StateM Disk) α) (disk : Disk) : Except Error α × Disk :=
  errand.run.run disk

theorem on_bind_of_ok {value : α} (done : errand.on disk = (.ok value, next)) :
    (errand >>= rest).on disk = (rest value).on next := by
  rw [on] at done
  rw [on, ExceptT.run_bind, StateT.run_bind, done]
  rfl

theorem on_bind_of_error {error : Error} (failed : errand.on disk = (.error error, next)) :
    (errand >>= rest).on disk = (.error error, next) := by
  rw [on] at failed
  rw [on, ExceptT.run_bind, StateT.run_bind, failed]
  rfl

theorem on_attempt (outcome : Except Error α) (disk : Disk) :
    (attempt outcome : Errand (StateM Disk) α).on disk = (outcome, disk) :=
  rfl

theorem on_lift (action : StateM Disk α) (disk : Disk) :
    on (ExceptT.lift action) disk = (.ok (action.run disk).1, (action.run disk).2) :=
  rfl

/-- An errand whose failure is kept as a value does not fail. -/
theorem on_lift_run (errand : Errand (StateM Disk) α) (disk : Disk) :
    on (ExceptT.lift errand.run) disk = (.ok (errand.on disk).1, (errand.on disk).2) :=
  rfl

theorem on_readText (path : String) (disk : Disk) :
    (readText path : Errand (StateM Disk) String).on disk =
      ((disk.readText path).1.mapError .device, (disk.readText path).2) :=
  rfl

theorem on_createFile (path : String) (disk : Disk) :
    (createFile path : Errand (StateM Disk) Unit).on disk =
      ((disk.createFile path).1.mapError .device, (disk.createFile path).2) :=
  rfl

theorem on_appendText (path text : String) (disk : Disk) :
    (appendText path text : Errand (StateM Disk) Unit).on disk =
      ((disk.appendText path text).1.mapError .device, (disk.appendText path text).2) :=
  rfl

theorem on_writeText (path text : String) (disk : Disk) :
    (writeText path text : Errand (StateM Disk) Unit).on disk =
      ((disk.write path text).1.mapError .device, (disk.write path text).2) := by
  rw [Disk.write]
  cases created : disk.createFile path with
  | mk outcome made =>
      have creates : (createFile path : Errand (StateM Disk) Unit).on disk =
          (outcome.mapError .device, made) := by
        rw [on_createFile, created]
      cases outcome with
      | error cause => rw [writeText, on_bind_of_error creates]; rfl
      | ok done => rw [writeText, on_bind_of_ok creates, on_appendText]

theorem on_tryCatch_of_ok {value : α} (done : errand.on disk = (.ok value, next))
    (handle : Error → Errand (StateM Disk) α) :
    (tryCatch errand handle).on disk = (.ok value, next) := by
  rw [on] at done
  rw [on, ExceptT.run_tryCatch, StateT.run_bind, done]
  rfl

theorem on_tryCatch_of_error {error : Error} (failed : errand.on disk = (.error error, next))
    (handle : Error → Errand (StateM Disk) α) :
    (tryCatch errand handle).on disk = (handle error).on next := by
  rw [on] at failed
  rw [on, ExceptT.run_tryCatch, StateT.run_bind, failed]
  rfl

/-! ## Errands that only read -/

/-- An errand leaves a disk as it is, but for the input that it may use up. -/
def OnlyReads (errand : Errand (StateM Disk) α) : Prop :=
  ∀ disk, ∃ outcome input, errand.on disk = (outcome, { disk with input })

theorem onlyReads_pure (value : α) : OnlyReads (pure value) :=
  fun disk => ⟨.ok value, disk.input, rfl⟩

theorem onlyReads_attempt (outcome : Except Error α) : OnlyReads (attempt outcome) :=
  fun disk => ⟨outcome, disk.input, rfl⟩

theorem onlyReads_readText (path : String) : OnlyReads (readText path) := by
  intro disk
  obtain ⟨outcome, input, read⟩ := disk.exists_readText path
  exact ⟨outcome.mapError .device, input, by rw [on_readText, read]⟩

theorem OnlyReads.bind (first : errand.OnlyReads) (second : ∀ value, (rest value).OnlyReads) :
    (errand >>= rest).OnlyReads := by
  intro disk
  obtain ⟨outcome, input, done⟩ := first disk
  cases outcome with
  | ok value =>
      obtain ⟨final, left, goesOn⟩ := second value { disk with input }
      exact ⟨final, left, (on_bind_of_ok done).trans goesOn⟩
  | error error => exact ⟨.error error, input, on_bind_of_error done⟩

end Errand

namespace Tool

/-- The status of a tool on a disk, and the disk after it. -/
def on (tool : Tool) (arguments : List String) (disk : Disk) : UInt32 × Disk :=
  (tool.run arguments : StateM Disk UInt32).run disk

end Tool

variable {α : Type} {errand : Errand (StateM Disk) α} {disk next : Disk}

theorem conclude_of_ok {result : α} (done : errand.on disk = (.ok result, next))
    (succeed : α → StateM Disk Unit) :
    (conclude errand succeed).run disk = (0, ((succeed result).run next).2) := by
  rw [Errand.on] at done
  rw [conclude, StateT.run_bind, done]
  rfl

theorem conclude_of_error {error : Error} (failed : errand.on disk = (.error error, next))
    (succeed : α → StateM Disk Unit) :
    (conclude errand succeed).run disk =
      (1, { next with errors := next.errors ++ [error] }) := by
  rw [Errand.on] at failed
  rw [conclude, StateT.run_bind, failed]
  rfl

end ContactReplay.Cli
