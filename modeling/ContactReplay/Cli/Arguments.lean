import ContactReplay.Table
import ContactReplay.Text.Numeral

/-!
# Command-line arguments

A command line is a list of options, each given once at most, either as two arguments or as one with
`=` between the name and the value.  Arguments are taken from the left, and the first one that does
not fit, or that asks for help, decides.  An option's value may begin with a hyphen only after `=`,
or if the hyphen is all of it.
-/

namespace ContactReplay.Cli

/-- What follows an option. -/
inductive OptionKind where
  /-- Nothing. -/
  | flag
  /-- The path of a file, which is not empty. -/
  | path
  /-- Any text. -/
  | text
  /-- An unsigned 64-bit numeral. -/
  | number
  deriving DecidableEq, Repr

/-- An option that a command line may have. -/
structure OptionSpec where
  name : String
  kind : OptionKind
  deriving DecidableEq, Repr

/-- The value of an option. -/
inductive OptionValue where
  | flag
  | text (value : String)
  | number (value : UInt64)
  deriving DecidableEq, Repr

abbrev Arguments := Table String OptionValue

/-- Why a command line is not carried out. -/
inductive Stop where
  | help
  | misuse
  deriving DecidableEq, Repr

namespace OptionKind

def value? (kind : OptionKind) (text : String) : Option OptionValue :=
  match kind with
  | .flag => none
  | .path => if text.isEmpty then none else some (.text text)
  | .text => some (.text text)
  | .number => (Text.numeral? text.toList).map .number

end OptionKind

namespace Arguments

def has (arguments : Arguments) (name : String) : Bool := arguments.contains name

def text? (arguments : Arguments) (name : String) : Option String :=
  match arguments.get? name with
  | some (.text value) => some value
  | _ => none

def number? (arguments : Arguments) (name : String) : Option UInt64 :=
  match arguments.get? name with
  | some (.number value) => some value
  | _ => none

def add (arguments : Arguments) (name : String) (value : Option OptionValue) :
    Except Stop Arguments :=
  match value with
  | some value => if arguments.has name then .error .misuse else .ok (arguments.insert name value)
  | none => .error .misuse

end Arguments

/-- A single argument as it is understood on its own. -/
inductive Argument where
  | help
  /-- The mark after which only operands follow. -/
  | endOfOptions
  /-- An option with its value after `=`, if it has one there. -/
  | option (name : String) (assigned : Option String)
  | other
  deriving DecidableEq, Repr

namespace Argument

def read (argument : String) : Argument :=
  match argument.toList with
  | ['-', '-'] => .endOfOptions
  | '-' :: '-' :: body =>
      let name := String.ofList (body.takeWhile (· ≠ '='))
      match body.dropWhile (· ≠ '=') with
      | _ :: value => .option name (some (String.ofList value))
      | [] => if name = "help" then .help else .option name none
  | '-' :: 'h' :: _ => .help
  | _ => .other

/-- Whether an argument can be the value of the option before it. -/
def canBeValue (argument : String) : Bool :=
  match argument.toList with
  | '-' :: _ :: _ => false
  | _ => true

end Argument

/-- Take the arguments in after those that have been taken in already. -/
def readFrom (specs : List OptionSpec) (taken : Arguments) :
    List String → Except Stop Arguments
  | [] => .ok taken
  | argument :: rest =>
      match Argument.read argument with
      | .help => .error .help
      | .other => .error .misuse
      | .endOfOptions => if rest.isEmpty then .ok taken else .error .misuse
      | .option name assigned =>
          match specs.find? (fun spec => spec.name = name), assigned, rest with
          | none, _, _ => .error .misuse
          | some ⟨_, .flag⟩, none, rest => do
              readFrom specs (← taken.add name (some .flag)) rest
          | some spec, some value, rest => do
              readFrom specs (← taken.add name (spec.kind.value? value)) rest
          | some spec, none, value :: later =>
              if Argument.canBeValue value then do
                readFrom specs (← taken.add name (spec.kind.value? value)) later
              else .error .misuse
          | some _, none, [] => .error .misuse

def readArguments (specs : List OptionSpec) (arguments : List String) : Except Stop Arguments :=
  readFrom specs ∅ arguments

end ContactReplay.Cli
