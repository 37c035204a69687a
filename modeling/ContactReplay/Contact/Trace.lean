import ContactReplay.Contact.Basic
import ContactReplay.Error
import ContactReplay.Text.Line

/-!
# Reading contact traces

A contact trace has one contact a line, in tab-separated columns: who observed, who was observed,
the first and the last step.  Further columns are ignored.  Too few columns are noticed first, then
the leftmost column that cannot be read, then a node that meets itself and an end before the start.
The first line that cannot be read decides for the whole trace.
-/

namespace ContactReplay.Contact

def readName (column : List Char) : Except ContactFormatError NodeName :=
  if column.isEmpty then .error .emptyName else .ok (.ofText (String.ofList column))

def readLine (text : List Char) : Except ContactFormatError Contact :=
  match Text.fields text with
  | observerColumn :: observedColumn :: startColumn :: stopColumn :: _ => do
      let observer ← readName observerColumn
      let observed ← readName observedColumn
      let some start := Text.numeral? startColumn
        | throw (.invalidStart (String.ofList startColumn))
      let some stop := Text.numeral? stopColumn
        | throw (.invalidStop (String.ofList stopColumn))
      if observer = observed then
        throw (.selfContact observer)
      if stop < start then
        throw (.reversed start stop)
      return ⟨observer, observed, start, stop⟩
  | few => .error (.missingFields few.length)

/-- The contacts of a trace, one for every line that is neither blank nor a comment. -/
def readTrace (text : String) : Except Error (List Contact) :=
  (Text.spokenLines text.toList).mapM fun line =>
    (readLine line.text).mapError fun cause => .format line.number (.contact cause)

end ContactReplay.Contact
