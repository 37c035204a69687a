import ContactReplay.Error
import ContactReplay.GraphStream.Document
import ContactReplay.Text.Line
import ContactReplay.Text.Numeral

/-!
# Reading graph streams

The lines that say something are taken one after the other.  `Stage` is what is known so far, and
`Stage.readLine` takes one line in, so the first line that cannot follow decides, whatever comes
after it.  `Stage.document` refuses a text that ends before its setup step.
-/

namespace ContactReplay

def Text.words (line : List Char) : List String := (tokens line).map String.ofList

namespace GraphStream

/-- What has been read after the header, newest first; the newest step is the one that is being
read, and its lines are newest first too. -/
structure Draft where
  header : Header
  nodes : List String := []
  steps : List DocumentStep := []
  deriving DecidableEq, Repr

/-- How far a text has been read. -/
inductive Stage where
  | blank
  | tagged (line : Nat)
  | headed (line : Nat) (header : Header)
  | body (draft : Draft)
  deriving DecidableEq, Repr

/-! ## Single lines -/

def readCount (raw : String) : Except StreamFormatError UInt64 :=
  match Text.numeral? raw.toList with
  | some count => .ok count
  | none => .error (.invalidCount raw)

/-- The header line: a name and two counts. -/
def readHeader (line : List Char) : Except StreamFormatError Header :=
  match Text.words line with
  | [name, steps, events] => do return ⟨name, ← readCount steps, ← readCount events⟩
  | _ => .error (.malformedHeader (String.ofList line))

def readStepNumber (line : List Char) : Except StreamFormatError UInt64 :=
  match Text.words line with
  | [word, raw] =>
      if word = Action.step.word then
        match Text.numeral? raw.toList with
        | some step => .ok step
        | none => .error (.invalidStepNumber raw)
      else .error (.malformedStep (String.ofList line))
  | _ => .error (.malformedStep (String.ofList line))

/-- The setup line: a step line with the number zero. -/
def readSetup (line : List Char) : Except StreamFormatError Unit := do
  if Action.step.word.toList.isPrefixOf line then
    if (← readStepNumber line) = 0 then return
  throw (.unexpectedSetup (String.ofList line))

/-- The operands of an added edge: its name and two different nodes, none of them a direction. -/
def readAddition (line : List Char) (number : Nat) (operands : List String) :
    Except StreamFormatError EdgeLine :=
  if ">" ∈ operands ∨ "<" ∈ operands then .error .directedEdge
  else
    match operands with
    | [edge, first, second] =>
        if first = second then .error (.selfLoop first) else .ok (.add edge first second number)
    | _ => .error (.malformedAdd (String.ofList line))

/-- The operand of a deleted edge: its name. -/
def readDeletion (line : List Char) (number : Nat) (operands : List String) :
    Except StreamFormatError EdgeLine :=
  match operands with
  | [edge] => .ok (.delete edge number)
  | _ => .error (.malformedDelete (String.ofList line))

/-! ## The body -/

namespace Draft

/-- The number of the step that is being read; the setup step has the number zero. -/
def currentStep (draft : Draft) : UInt64 :=
  match draft.steps with
  | moment :: _ => moment.step
  | [] => 0

def openStep (draft : Draft) (line : Text.Line) : Except StreamFormatError Draft := do
  let step ← readStepNumber line.text
  if step ≤ draft.currentStep then throw (.stepOutOfOrder step draft.currentStep)
  return { draft with steps := ⟨step, line.number, []⟩ :: draft.steps }

/-- Take a line of the setup step in; what follows the name of a node is ignored. -/
def readSetupLine (draft : Draft) (line : Text.Line) (word : String) (operands : List String) :
    Except StreamFormatError Draft :=
  match Action.ofWord? word, operands with
  | some .step, _ => draft.openStep line
  | some .addNode, name :: _ => .ok { draft with nodes := name :: draft.nodes }
  | some .addNode, [] => .error .namelessNode
  | some .addEdge, _ | some .deleteEdge, _ => .error (.edgeInSetup (String.ofList line.text))
  | none, _ => .error (.unknownAction word)

def readStepLine (draft : Draft) (current : DocumentStep) (earlier : List DocumentStep)
    (line : Text.Line) (word : String) (operands : List String) :
    Except StreamFormatError Draft :=
  let extend (edge : EdgeLine) : Draft :=
    { draft with steps := { current with lines := edge :: current.lines } :: earlier }
  match Action.ofWord? word with
  | some .step => draft.openStep line
  | some .addNode => .error (.nodeOutsideSetup current.step)
  | some .addEdge => (readAddition line.text line.number operands).map extend
  | some .deleteEdge => (readDeletion line.text line.number operands).map extend
  | none => .error (.unknownAction word)

def readLine (draft : Draft) (line : Text.Line) : Except StreamFormatError Draft :=
  match Text.words line.text with
  | [] => .ok draft
  | word :: operands =>
      match draft.steps with
      | [] => draft.readSetupLine line word operands
      | current :: earlier => draft.readStepLine current earlier line word operands

/-- The document of everything read, in the order of the text. -/
def document (draft : Draft) : Document where
  header := draft.header
  nodes := draft.nodes.reverse
  steps := (draft.steps.map fun moment => { moment with lines := moment.lines.reverse }).reverse

end Draft

/-! ## Whole texts -/

namespace Stage

def readText (stage : Stage) (line : Text.Line) : Except StreamFormatError Stage :=
  match stage with
  | .blank =>
      let tag := String.ofList line.text
      if tag = formatTag then .ok (.tagged line.number) else .error (.unsupportedTag tag)
  | .tagged _ => (readHeader line.text).map (.headed line.number)
  | .headed _ header => (readSetup line.text).map fun _ => .body { header }
  | .body draft => (draft.readLine line).map .body

def readLine (stage : Stage) (line : Text.Line) : Except Error Stage :=
  (stage.readText line).mapError fun cause => .format line.number (.stream cause)

/-- The document of a text that ends here.  A missing line is reported at the last line there is. -/
def document : Stage → Except Error Document
  | .blank => .error (.format 0 (.stream .emptyStream))
  | .tagged line => .error (.format line (.stream .missingHeader))
  | .headed line _ => .error (.format line (.stream .missingSetup))
  | .body draft => .ok draft.document

end Stage

end GraphStream

def Document.read (text : String) : Except Error Document := do
  let stage ← (Text.spokenLines text.toList).foldlM GraphStream.Stage.readLine .blank
  stage.document

end ContactReplay
