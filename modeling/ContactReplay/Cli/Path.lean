import ContactReplay.Error
import ContactReplay.Text.Blank

/-!
# Paths

A path names a place by the way to it, one name after the other with slashes between:

* a path that begins with a slash begins at the root, and any other one where the tool is run;
* several slashes in a row are one slash, and a slash at the end asks for a directory;
* `.` and `..` are names like any other here; what they lead to is up to the disk.

A path is shorter than 4096 bytes, and a name has at most 255.
-/

namespace ContactReplay.Cli

/-- The way to a place. -/
structure Path where
  absolute : Bool
  /-- The names on the way; none of them is empty. -/
  names : List String
  endsInSlash : Bool
  deriving DecidableEq, Repr

namespace Path

def namesOf (text : String) : List String :=
  ((Text.splitAt (· == '/') text.toList).map String.ofList).filter (· ≠ "")

def read (text : String) : Except DeviceError Path :=
  if text.isEmpty then .error .notFound
  else if 4096 ≤ text.utf8ByteSize then .error .nameTooLong
  else .ok {
    absolute := text.toList.head? = some '/'
    names := namesOf text
    endsInSlash := text.toList.getLast? = some '/' }

/-- Whether a name stands for the directory itself or for the one around it. -/
def isDots (name : String) : Bool := name = "." || name = ".."

def isTooLong (name : String) : Bool := 255 < name.utf8ByteSize

end Path

end ContactReplay.Cli
