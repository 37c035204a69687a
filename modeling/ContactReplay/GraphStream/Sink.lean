import ContactReplay.Error

/-!
# Byte sinks

A `Sink` collects what is written to it.  It may have room for a limited number of bytes: a text
that does not fit is written as far as there is room and then fails, and so does every later text
that is not empty.
-/

namespace ContactReplay

/-- Collects written bytes. -/
structure Sink where
  /-- The number of bytes that can still be written, `none` for any number. -/
  room : Option Nat := none
  written : List UInt8 := []
  deriving DecidableEq, Repr

def utf8 (text : String) : List UInt8 := text.toUTF8.data.toList

/-- The text of bytes; bytes at the end that do not make up a whole character are shown as one
replacement character. -/
def textOfUtf8 (bytes : List UInt8) : String :=
  let complete (dropped : Nat) : Option String :=
    (String.fromUTF8? ⟨(bytes.take (bytes.length - dropped)).toArray⟩).map fun text =>
      if dropped = 0 then text else text ++ "\uFFFD"
  ([0, 1, 2, 3].findSome? complete).getD ""

namespace Sink

def write (sink : Sink) (text : String) : Except Error Unit × Sink :=
  let bytes := utf8 text
  match sink.room with
  | none => (.ok (), ⟨none, sink.written ++ bytes⟩)
  | some room =>
      if bytes.length ≤ room then (.ok (), ⟨some (room - bytes.length), sink.written ++ bytes⟩)
      else (.error (.device .sinkFull), ⟨some 0, sink.written ++ bytes.take room⟩)

/-- Write lines up to the first that does not fit, each with a line feed. -/
def writeLines (sink : Sink) : List String → Except Error Unit × Sink
  | [] => (.ok (), sink)
  | line :: rest =>
      match sink.write (line ++ "\n") with
      | (.ok _, next) => next.writeLines rest
      | (.error error, full) => (.error error, full)

def text (sink : Sink) : String := textOfUtf8 sink.written

end Sink

end ContactReplay
