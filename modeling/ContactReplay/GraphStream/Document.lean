/-!
# Graph stream documents

A graph stream is a text file in the format `DGS004`.  After a tag line and a header line come a
setup step, which declares the nodes, and then the steps, each with the edges that it adds and
deletes:

* `Action` lists the words that a line of the body may begin with;
* `EdgeLine`, `DocumentStep` and `Document` hold what a file says, with the numbers of its lines.
-/

namespace ContactReplay

/-- The tag that the first line of a graph stream consists of. -/
def formatTag : String := "DGS004"

/-- The action of a body line. -/
inductive Action where
  | step
  | addNode
  | addEdge
  | deleteEdge
  deriving DecidableEq, Repr

namespace Action

def word : Action → String
  | .step => "st"
  | .addNode => "an"
  | .addEdge => "ae"
  | .deleteEdge => "de"

instance : ToString Action := ⟨word⟩

def all : List Action := [.step, .addNode, .addEdge, .deleteEdge]

def ofWord? (word : String) : Option Action := all.find? fun action => action.word = word

theorem ofWord?_word (action : Action) : ofWord? action.word = some action := by
  cases action <;> decide

end Action

/-- One line of a step after the setup. -/
inductive EdgeLine where
  | add (edge first second : String) (number : Nat)
  | delete (edge : String) (number : Nat)
  deriving DecidableEq, Repr

namespace EdgeLine

def edge : EdgeLine → String
  | .add edge .. => edge
  | .delete edge _ => edge

def ends? : EdgeLine → Option (String × String)
  | .add _ first second _ => some (first, second)
  | .delete .. => none

end EdgeLine

/-- A step after the setup. -/
structure DocumentStep where
  step : UInt64
  number : Nat
  lines : List EdgeLine
  deriving DecidableEq, Repr

/-- What the header line declares; the counts may be wrong. -/
structure Header where
  graphName : String
  declaredSteps : UInt64
  declaredEvents : UInt64
  deriving DecidableEq, Repr

/-- The contents of a graph stream. -/
structure Document where
  header : Header
  /-- The nodes of the setup step in order; one may be declared twice. -/
  nodes : List String
  steps : List DocumentStep
  deriving DecidableEq, Repr

namespace Document

def stepCount (document : Document) : Nat := document.steps.length + 1

def lines (document : Document) : List EdgeLine := document.steps.flatMap (·.lines)

/-- The number of declared nodes and of added and deleted edges. -/
def eventCount (document : Document) : Nat := document.nodes.length + document.lines.length

end Document

end ContactReplay
