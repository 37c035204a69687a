import ContactReplay.Text.Blank

/-!
# Lines

Both file formats of this library are read line by line:

* a line ends at a line feed, and a carriage return right before the line feed belongs to the line
  end, whereas one elsewhere is an ordinary character;
* a text that does not end in a line feed has one last line without an end;
* blank lines and lines whose first character after trimming is `#` say nothing, but they count: a
  line keeps its place, counted from one.
-/

namespace ContactReplay.Text

/-- The lines of a text without their ends. -/
def lines : List Char → List (List Char)
  | [] => []
  | '\r' :: '\n' :: rest => [] :: lines rest
  | '\n' :: rest => [] :: lines rest
  | character :: rest => consFirst character (lines rest)

/-- A trimmed line with its place in the text, counted from one. -/
structure Line where
  number : Nat
  text : List Char
  deriving DecidableEq, Repr

/-- Whether a trimmed line says nothing: it is empty or a comment. -/
def isSilent (text : List Char) : Bool := text.isEmpty || text.head? = some '#'

/-- The lines of a text that say something, trimmed and numbered. -/
def spokenLines (text : List Char) : List Line :=
  ((lines text).zipIdx 1).filterMap fun (line, number) =>
    let trimmed := trim line
    if isSilent trimmed then none else some ⟨number, trimmed⟩

def fields (line : List Char) : List (List Char) := (splitAt (· == '\t') line).map trim

end ContactReplay.Text
