import ContactReplay.Cli.Tool

/-!
# Running the tools

The first argument names the tool, and the others are its command line.  Files, streams and the
clock are those of the system.
-/

namespace ContactReplay.Cli

/-- The number by which the system knows a failure of a file, if it is one. -/
def systemNumber? : IO.Error → Option UInt32
  | .noFileOrDirectory _ number _ => some number
  | .inappropriateType _ number _ => some number
  | .invalidArgument _ number _ => some number
  | .resourceExhausted _ number _ => some number
  | _ => none

def deviceError (error : IO.Error) : DeviceError :=
  match systemNumber? error with
  | some 2 => .notFound
  | some 20 => .notDirectory
  | some 21 => .isDirectory
  | some 28 => .noRoom
  | some 36 => .nameTooLong
  | _ => .other (toString error)

/-- Carry an action of the system out and keep its failure. -/
def guarded {α : Type} (action : IO (Except DeviceError α)) : IO (Except DeviceError α) := do
  try
    action
  catch error =>
    return .error (deviceError error)

instance : Console IO where
  readText path := guarded do
    match String.fromUTF8? (← IO.FS.readBinFile path) with
    | some text => return .ok text
    | none => return .error .notText
  createFile path := guarded do
    IO.FS.writeFile path ""
    return .ok ()
  appendText path text := guarded do
    IO.FS.withFile path .append fun file => file.putStr text
    return .ok ()
  output text := do
    let stream ← IO.getStdout
    stream.putStr text
    stream.flush
  summarize line := IO.eprintln line
  report error := IO.eprintln s!"ERROR {error.message}"
  confirm prompt := guarded do
    let stream ← IO.getStderr
    stream.putStr (prompt.text ++ " ")
    stream.flush
    let _ ← (← IO.getStdin).getLine
    return .ok ()
  wait duration := IO.sleep (min (duration.nanoseconds / 1000000) (UInt32.size - 1)).toUInt32

end ContactReplay.Cli

open ContactReplay.Cli in
def main (arguments : List String) : IO UInt32 :=
  match arguments with
  | name :: rest =>
      match Tool.ofName? name with
      | some tool => tool.run rest
      | none => return Stop.misuse.status
  | [] => return Stop.misuse.status
