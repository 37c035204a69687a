import ContactReplay.Cli.Console
import ContactReplay.Cli.Path
import ContactReplay.GraphStream.Sink
import ContactReplay.Table

/-!
# Disks in memory

A `Disk` is a console in memory: a tree of directories with files and devices, and everything that a
tool has shown.

* `Disk.enter` goes one name further, and only from a directory; every other way is a chain of such
  steps, so the first name that leads nowhere decides;
* `Disk.locate` finds the place of a path that is to be read, which has to be there;
* `Disk.reserve` finds the place of a path that is to be written, of which only the directory around
  it has to be there.
-/

namespace ContactReplay.Cli

/-- A place of a tree: the names on the way from the root. -/
abbrev Place := List String

/-- Something that can be read and written like a file. -/
inductive Device where
  /-- Has nothing to read and keeps nothing. -/
  | null
  /-- Has no room for anything. -/
  | full
  | input
  | output
  /-- Takes what is shown beside the output. -/
  | reports
  deriving DecidableEq, Repr

/-- What stands at a place. -/
inductive Entry where
  | directory
  | file (bytes : List UInt8)
  | device (device : Device)
  deriving DecidableEq, Repr

/-- Files and everything shown to the user. -/
structure Disk where
  /-- What stands at places other than the root. -/
  entries : Table Place Entry := ∅
  /-- The directory where relative paths begin. -/
  current : Place := []
  input : String := ""
  output : String := ""
  summaries : List String := []
  errors : List Error := []
  prompts : List Prompt := []
  deriving Repr

namespace Disk

/-! ## Finding places -/

/-- What stands at a place.  The root is a directory, and so is every place below which something
stands. -/
def entry? (disk : Disk) (place : Place) : Option Entry :=
  match disk.entries.get? place with
  | some entry => some entry
  | none =>
      if place.isEmpty || disk.entries.keys.any place.isPrefixOf then some .directory else none

def enter (disk : Disk) (place : Place) (name : String) : Except DeviceError Place :=
  if disk.entry? place ≠ some .directory then .error .notDirectory
  else if name = "." then .ok place
  else if name = ".." then .ok place.dropLast
  else if Path.isTooLong name then .error .nameTooLong
  else if (disk.entry? (place ++ [name])).isNone then .error .notFound
  else .ok (place ++ [name])

def follow (disk : Disk) (path : Path) (names : List String) : Except DeviceError Place :=
  names.foldlM disk.enter (if path.absolute then [] else disk.current)

/-- The place that a path leads to.  A path that ends in a slash leads to a directory. -/
def locate (disk : Disk) (path : Path) : Except DeviceError Place := do
  let place ← disk.follow path path.names
  if path.endsInSlash then disk.enter place "." else return place

/-- The place where the file of a path is or can be made; a directory cannot be that place, whether
it is there or only asked for. -/
def reserve (disk : Disk) (path : Path) : Except DeviceError Place := do
  let some name := path.names.getLast? | throw .isDirectory
  let around ← disk.enter (← disk.follow path path.names.dropLast) "."
  if Path.isDots name || path.endsInSlash then throw .isDirectory
  if Path.isTooLong name then throw .nameTooLong
  let place := around ++ [name]
  if disk.entry? place = some .directory then throw .isDirectory
  return place

/-! ## Reading and writing -/

/-- The bytes at a place.  Reading the input uses it up. -/
def readPlace (disk : Disk) (place : Place) : Except DeviceError (List UInt8) × Disk :=
  match disk.entry? place with
  | none => (.error .notFound, disk)
  | some .directory => (.error .isDirectory, disk)
  | some (.file bytes) => (.ok bytes, disk)
  | some (.device .input) => (.ok (utf8 disk.input), { disk with input := "" })
  | some (.device .full) => (.error .noRoom, disk)
  | some (.device _) => (.ok [], disk)

def decode (bytes : List UInt8) : Except DeviceError String :=
  match String.fromUTF8? ⟨bytes.toArray⟩ with
  | some text => .ok text
  | none => .error .notText

def readText (disk : Disk) (path : String) : Except DeviceError String × Disk :=
  match Path.read path >>= disk.locate with
  | .error cause => (.error cause, disk)
  | .ok place =>
      let (bytes, next) := disk.readPlace place
      (bytes >>= decode, next)

/-- Make the file of a path, or empty the one that is there; devices stay as they are. -/
def createFile (disk : Disk) (path : String) : Except DeviceError Unit × Disk :=
  match Path.read path >>= disk.reserve with
  | .error cause => (.error cause, disk)
  | .ok place =>
      match disk.entry? place with
      | some (.device _) => (.ok (), disk)
      | _ => (.ok (), { disk with entries := disk.entries.insert place (.file []) })

def appendPlace (disk : Disk) (place : Place) (text : String) : Except DeviceError Unit × Disk :=
  match disk.entry? place with
  | none => (.error .notFound, disk)
  | some .directory => (.error .isDirectory, disk)
  | some (.file bytes) =>
      (.ok (), { disk with entries := disk.entries.insert place (.file (bytes ++ utf8 text)) })
  | some (.device .output) => (.ok (), { disk with output := disk.output ++ text })
  | some (.device .full) => (if text.isEmpty then .ok () else .error .noRoom, disk)
  | some (.device _) => (.ok (), disk)

def appendText (disk : Disk) (path text : String) : Except DeviceError Unit × Disk :=
  match Path.read path >>= disk.locate with
  | .error cause => (.error cause, disk)
  | .ok place => disk.appendPlace place text

/-! ## Disks to begin with -/

def system : Table Place Entry :=
  .ofList <|
    [["dev", "null"]].map (·, .device .null) ++
    [["dev", "full"]].map (·, .device .full) ++
    [["dev", "stdin"], ["dev", "fd", "0"], ["proc", "self", "fd", "0"]].map
      (·, .device .input) ++
    [["dev", "stdout"], ["dev", "fd", "1"], ["proc", "self", "fd", "1"]].map
      (·, .device .output) ++
    [["dev", "stderr"], ["dev", "fd", "2"], ["proc", "self", "fd", "2"]].map
      (·, .device .reports) ++
    [["bin"], ["boot"], ["dev", "shm"], ["etc"], ["home"], ["lib"], ["media"], ["mnt"], ["opt"],
      ["root"], ["run"], ["sbin"], ["srv"], ["sys"], ["tmp"], ["usr", "bin"], ["usr", "lib"],
      ["usr", "local"], ["usr", "share"], ["var", "lib"], ["var", "log"], ["var", "tmp"]].map
      (·, .directory)

/-- A disk with a directory that holds files, each named by its path in the directory. -/
def withFiles (home current : Place) (files : List (String × List UInt8)) : Disk where
  entries := system.insertAll <|
    (home, .directory) :: (current, .directory) ::
      files.map fun (path, bytes) => (home ++ Path.namesOf path, .file bytes)
  current

def file? (disk : Disk) (home : Place) (path : String) : Option (List UInt8) :=
  match disk.entry? (home ++ Path.namesOf path) with
  | some (.file bytes) => some bytes
  | _ => none

end Disk

instance : Console (StateM Disk) where
  readText path := fun disk => disk.readText path
  createFile path := fun disk => disk.createFile path
  appendText path text := fun disk => disk.appendText path text
  output text := modify fun disk => { disk with output := disk.output ++ text }
  summarize line := modify fun disk => { disk with summaries := disk.summaries ++ [line] }
  report error := modify fun disk => { disk with errors := disk.errors ++ [error] }
  confirm prompt := do
    modify fun disk => { disk with prompts := disk.prompts ++ [prompt] }
    return .ok ()
  wait _ := pure ()

end ContactReplay.Cli
