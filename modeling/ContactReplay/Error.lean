import ContactReplay.Contact.Name
import ContactReplay.Counter
import ContactReplay.Pair

/-!
# Errors

An error of this library is a value that says what went wrong:

* each family of causes is an inductive type that keeps what its report shows;
* `Error` joins the families, and `Error.kind` names the family;
* the wording of the reports is in the `message` functions and nowhere else.

Every error ends the activity in which it arises.  An operation on a state gives its outcome
together with the next state, so what it changes before it fails stays changed.
-/

namespace ContactReplay

/-! ## Unreadable input -/

/-- Why a line of a contact trace cannot be read. -/
inductive ContactFormatError where
  | missingFields (count : Nat)
  | emptyName
  | invalidStart (raw : String)
  | invalidStop (raw : String)
  | selfContact (node : NodeName)
  | reversed (start stop : UInt64)
  deriving DecidableEq, Repr

/-- Why a graph stream cannot be read. -/
inductive StreamFormatError where
  | emptyStream
  | unsupportedTag (tag : String)
  | missingHeader
  | malformedHeader (header : String)
  | invalidCount (raw : String)
  | missingSetup
  | unexpectedSetup (line : String)
  | invalidStepNumber (raw : String)
  | malformedStep (line : String)
  | stepOutOfOrder (step last : UInt64)
  | namelessNode
  | edgeInSetup (line : String)
  | unknownAction (word : String)
  | nodeOutsideSetup (step : UInt64)
  | directedEdge
  | malformedAdd (line : String)
  | selfLoop (node : String)
  | malformedDelete (line : String)
  deriving DecidableEq, Repr

/-- Why a line of an input file cannot be read. -/
inductive FormatError where
  | contact (cause : ContactFormatError)
  | stream (cause : StreamFormatError)
  deriving DecidableEq, Repr

namespace ContactFormatError

def message : ContactFormatError → String
  | .missingFields count => s!"expected at least 4 tab-separated fields, got {count}"
  | .emptyName => "empty node identifier"
  | .invalidStart raw => s!"invalid start time '{raw}'"
  | .invalidStop raw => s!"invalid end time '{raw}'"
  | .selfContact node => s!"node {node} cannot be in contact with itself"
  | .reversed start stop => s!"contact ends at {stop} before it starts at {start}"

end ContactFormatError

namespace StreamFormatError

def message : StreamFormatError → String
  | .emptyStream => "empty event stream"
  | .unsupportedTag tag => s!"format tag is '{tag}' but only 'DGS004' is supported"
  | .missingHeader => "missing header line"
  | .malformedHeader header =>
      s!"expected header '<graph-name> <steps> <events>', got '{header}'"
  | .invalidCount raw => s!"invalid count '{raw}' in header"
  | .missingSetup => "missing setup step 'st 0'"
  | .unexpectedSetup line => s!"expected setup step 'st 0', got '{line}'"
  | .invalidStepNumber raw => s!"invalid step number '{raw}'"
  | .malformedStep line => s!"expected 'st <number>', got '{line}'"
  | .stepOutOfOrder step last => s!"step {step} does not follow step {last}"
  | .namelessNode => "'an' without node name"
  | .edgeInSetup line => s!"unexpected line in setup step 0, expected 'an ..' got '{line}'"
  | .unknownAction word => s!"unknown action '{word}'"
  | .nodeOutsideSetup step => s!"'an' is only allowed in the setup step, found in step {step}"
  | .directedEdge => "directed edges are not supported"
  | .malformedAdd line => s!"expected 'ae <edge> <node> <node>', got '{line}'"
  | .selfLoop node => s!"self-loop edge on node {node}"
  | .malformedDelete line => s!"expected 'de <edge>', got '{line}'"

end StreamFormatError

namespace FormatError

def message : FormatError → String
  | .contact cause => cause.message
  | .stream cause => cause.message

end FormatError

/-! ## Broken rules -/

/-- A rule of event streams or of a replay that its input breaks. -/
inductive InvariantError where
  | reversedContact (pair : Pair NodeName) (start stop : UInt64)
  | unsortedContact (pair : Pair NodeName) (start last : UInt64)
  | deleteBeforeAdd (pair : Pair NodeName) (step : UInt64)
  /-- The number `value` and the text `n{value}` would be written alike. -/
  | sharedLabel (value : UInt64)
  | unshiftableStep (step : UInt64)
  | addWhileOpen (pair : Pair NodeName) (step : UInt64)
  | deleteWhileClosed (pair : Pair NodeName) (step : UInt64)
  | nodeDeclaredTwice (name : String)
  | idInUse (id : NodeId) (holder : String)
  | undeclaredNode (line : Nat) (name : String)
  | lateAddress (node : NodeId)
  | configuredTwice (node : NodeId)
  | conductorSpent
  | edgeAlreadyUp (edge : String) (line : Nat) (step : UInt64)
  | deleteWithoutAdd (edge : String) (line : Nat) (step : UInt64)
  | noAllotment (pair : Pair NodeId)
  deriving DecidableEq, Repr

namespace InvariantError

def message : InvariantError → String
  | .reversedContact pair start stop =>
      s!"contact {pair} ends at {stop} before it starts at {start}"
  | .unsortedContact pair start last =>
      s!"contact {pair} starts at {start}, before previously pushed start {last}"
  | .deleteBeforeAdd pair step =>
      s!"delete-edge {pair} at step {step} has no preceding add-edge"
  | .sharedLabel value =>
      s!"nodes Num({value}) and Name(\"n{value}\") both render as 'n{value}'"
  | .unshiftableStep step => s!"step {step} cannot be shifted past u64::MAX"
  | .addWhileOpen pair step =>
      s!"add-edge {pair} at step {step} while an earlier add is still open"
  | .deleteWhileClosed pair step => s!"delete-edge {pair} at step {step} has no open add-edge"
  | .nodeDeclaredTwice name => s!"node '{name}' declared twice"
  | .idInUse id holder => s!"node id {id} already assigned to '{holder}'"
  | .undeclaredNode line name => s!"edge at line {line} references undeclared node '{name}'"
  | .lateAddress node => s!"discovery address added to node {node} after its config was finalized"
  | .configuredTwice node => s!"config of node {node} finalized twice"
  | .conductorSpent => "replay engine has already been used"
  | .edgeAlreadyUp edge line step =>
      s!"edge {edge} added at line {line} (step {step}) is already up"
  | .deleteWithoutAdd edge line step =>
      s!"delete of edge {edge} at line {line} (step {step}) without a tracked add"
  | .noAllotment pair => s!"no link was allocated for node pair {pair}"

end InvariantError

/-! ## Refused settings -/

/-- A setting that is outside its range. -/
inductive ConfigError where
  | zeroPad
  | graphName (name : String)
  | subnetCapacity (capacity : UInt64)
  | equalHosts
  | maskLength (length : UInt8)
  | zeroColumns
  | unnamedServiceFile
  | unknownPacing (word : String)
  deriving DecidableEq, Repr

namespace ConfigError

def message : ConfigError → String
  | .zeroPad => "zero_duration_pad must be positive"
  | .graphName name => s!"graph name '{name}' must be a single non-empty token"
  | .subnetCapacity capacity => s!"subnet_capacity must be in 1..=256, got {capacity}"
  | .equalHosts => "host_a and host_b must differ"
  | .maskLength length => s!"prefix_len must be at most 32, got {length}"
  | .zeroColumns => "grid.columns must be positive"
  | .unnamedServiceFile => "service and config_file must be set"
  | .unknownPacing word => s!"unknown pacing '{word}', expected fixed or proportional"

end ConfigError

/-! ## Refused testbed requests -/

/-- The requests that a testbed serves. -/
inductive Method where
  | createSession
  | setMode
  | setOptions
  | addNode
  | addLink
  | adjustLink
  | getFile
  | setFile
  | teardown
  deriving DecidableEq, Repr

namespace Method

def name : Method → String
  | .createSession => "create_session"
  | .setMode => "set_session_state"
  | .setOptions => "set_session_options"
  | .addNode => "add_node"
  | .addLink => "add_link"
  | .adjustLink => "edit_link"
  | .getFile => "get_node_config_file"
  | .setFile => "set_node_config_file"
  | .teardown => "teardown_session"

end Method

/-- Why a testbed refuses a request. -/
inductive Refusal where
  | unknownSession (session : SessionId)
  | tornDown (session : SessionId)
  | nodeExists (node : NodeId)
  | unknownNode (node : NodeId)
  | linkExists (pair : Pair NodeId)
  | unknownLink (pair : Pair NodeId)
  | interfaceMismatch (pair : Pair NodeId)
  | noFile (node : NodeId) (service file : String)
  /-- A rehearsal lets the request fail. -/
  | injected
  deriving DecidableEq, Repr

namespace Refusal

def message : Refusal → String
  | .unknownSession session => s!"unknown session {session}"
  | .tornDown session => s!"session {session} has been torn down"
  | .nodeExists node => s!"node {node} already exists"
  | .unknownNode node => s!"unknown node {node}"
  | .linkExists pair => s!"link {pair} already exists"
  | .unknownLink pair => s!"unknown link {pair}"
  | .interfaceMismatch pair => s!"interface ids do not match link {pair}"
  | .noFile node service file => s!"node {node} has no file {service}/{file}"
  | .injected => "injected failure"

end Refusal

/-! ## Failed input and output -/

/-- Why reading or writing outside the program fails. -/
inductive DeviceError where
  | notFound
  | isDirectory
  | notDirectory
  | notText
  /-- A name or a whole path has too many bytes. -/
  | nameTooLong
  | noRoom
  /-- A bounded sink is full. -/
  | sinkFull
  /-- A rehearsal lets a prompt fail. -/
  | injectedPrompt
  | other (text : String)
  deriving DecidableEq, Repr

namespace DeviceError

def message : DeviceError → String
  | .notFound => "No such file or directory (os error 2)"
  | .isDirectory => "Is a directory (os error 21)"
  | .notDirectory => "Not a directory (os error 20)"
  | .notText => "stream did not contain valid UTF-8"
  | .nameTooLong => "File name too long (os error 36)"
  | .noRoom => "No space left on device (os error 28)"
  | .sinkFull => "write limit reached"
  | .injectedPrompt => "injected prompt failure"
  | .other text => text

end DeviceError

/-! ## All errors -/

/-- Everything that can end an activity of this library. -/
inductive Error where
  | format (line : Nat) (cause : FormatError)
  | invariant (cause : InvariantError)
  | subnetsExhausted (capacity : UInt64)
  | refused (method : Method) (cause : Refusal)
  | config (cause : ConfigError)
  | cancelled (step : UInt64)
  | device (cause : DeviceError)
  | json
  deriving DecidableEq, Repr

/-- The families of errors. -/
inductive ErrorKind where
  | format
  | invariant
  | subnetsExhausted
  | refused
  | config
  | cancelled
  | device
  | json
  deriving DecidableEq, Repr

namespace Error

def kind : Error → ErrorKind
  | .format .. => .format
  | .invariant .. => .invariant
  | .subnetsExhausted .. => .subnetsExhausted
  | .refused .. => .refused
  | .config .. => .config
  | .cancelled .. => .cancelled
  | .device .. => .device
  | .json => .json

def message : Error → String
  | .format line cause => s!"format error at line {line}: {cause.message}"
  | .invariant cause => s!"invariant violation: {cause.message}"
  | .subnetsExhausted capacity =>
      s!"capacity exceeded: cannot allocate more than {capacity} links"
  | .refused method cause => s!"controller error in {method.name}: {cause.message}"
  | .config cause => s!"invalid configuration: {cause.message}"
  | .cancelled step => s!"replay cancelled before step {step}"
  | .device cause => s!"IO error: {cause.message}"
  | .json => "JSON error"

end Error

/-! ## Outcomes -/

/-- Two activities one after the other succeed exactly if both do. -/
theorem bind_eq_ok_iff {α β ε : Type} {first : Except ε α} {rest : α → Except ε β} {value : β} :
    first >>= rest = .ok value ↔ ∃ middle, first = .ok middle ∧ rest middle = .ok value := by
  cases first with
  | error cause => exact iff_of_false nofun nofun
  | ok middle =>
      constructor
      · exact fun done => ⟨middle, rfl, done⟩
      · intro both
        obtain ⟨other, same, done⟩ := both
        cases same
        exact done

end ContactReplay
