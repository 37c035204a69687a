import ContactReplay.Json.Reader
import ContactReplay.Json.Record
import ContactReplay.Settings.Basic

/-!
# Reading replay settings

Settings are read from a JSON text.  A field that is missing has its default, except that a position
needs both coordinates.  Reading does not check whether a replay can run with the settings.
-/

namespace ContactReplay

def Position.ofJson? (value : Json) : Option Position := do
  let fields ← value.record? ["x", "y"]
  return ⟨← fields.demand "x" Json.int32?, ← fields.demand "y" Json.int32?⟩

def Grid.ofJson? (value : Json) : Option Grid := do
  let fields ← value.record? ["columns", "spacing", "origin"]
  let default : Grid := {}
  return {
    columns := ← fields.read "columns" Json.word32? default.columns
    spacing := ← fields.read "spacing" Json.int32? default.spacing
    origin := ← fields.read "origin" Position.ofJson? default.origin }

def ControlNode.ofJson? (value : Json) : Option ControlNode := do
  let fields ← value.record? ["name", "model", "position"]
  let default : ControlNode := {}
  return {
    name := ← fields.read "name" Json.string? default.name
    model := ← fields.read "model" Json.string? default.model
    position := ← fields.read "position" Position.ofJson? default.position }

def AddressPlan.blockOfJson? : Json → Option (UInt8 × UInt8)
  | .array [first, second] => do return (← first.word8?, ← second.word8?)
  | _ => none

def AddressPlan.ofJson? (value : Json) : Option AddressPlan := do
  let fields ← value.record? ["block", "subnet_capacity", "host_a", "host_b", "prefix_len"]
  let default : AddressPlan := {}
  return {
    block := ← fields.read "block" AddressPlan.blockOfJson? default.block
    subnetCapacity := ← fields.read "subnet_capacity" Json.word64? default.subnetCapacity
    lowHost := ← fields.read "host_a" Json.word8? default.lowHost
    highHost := ← fields.read "host_b" Json.word8? default.highHost
    maskLength := ← fields.read "prefix_len" Json.word8? default.maskLength }

def DaemonSettings.ofJson? (value : Json) : Option DaemonSettings := do
  let fields ← value.record?
    ["cla", "routing_strategy", "discovery_interval_ms", "janitor_interval_ms"]
  let default : DaemonSettings := {}
  return {
    convergenceLayer := ← fields.read "cla" Json.string? default.convergenceLayer
    routingStrategy := ← fields.read "routing_strategy" Json.string? default.routingStrategy
    discoveryInterval :=
      ← fields.read "discovery_interval_ms" Json.word64? default.discoveryInterval
    janitorInterval := ← fields.read "janitor_interval_ms" Json.word64? default.janitorInterval }

/-- The way of pacing in a JSON value: its word, or an object whose only member has that name and no
content. -/
def Pacing.ofJson? : Json → Option Pacing
  | .text word => word.bind Pacing.ofWord?
  | .object [(word, .null)] => word.bind Pacing.ofWord?
  | _ => none

def Settings.ofJson? (value : Json) : Option Settings := do
  let fields ← value.record?
    ["max_steps", "step_delay_ms", "pacing", "interactive", "node_model", "service",
      "config_file", "addressing", "patch", "control_node", "control_net", "grid"]
  let default : Settings := {}
  return {
    maxSteps := ← fields.read "max_steps" (Json.nullable Json.word64?) default.maxSteps
    stepDelay := ← fields.read "step_delay_ms" Json.word64? default.stepDelay
    pacing := ← fields.read "pacing" Pacing.ofJson? default.pacing
    interactive := ← fields.read "interactive" Json.bool? default.interactive
    nodeModel := ← fields.read "node_model" Json.string? default.nodeModel
    service := ← fields.read "service" Json.string? default.service
    configFile := ← fields.read "config_file" Json.string? default.configFile
    addressing := ← fields.read "addressing" AddressPlan.ofJson? default.addressing
    daemon := ← fields.read "patch" DaemonSettings.ofJson? default.daemon
    controlNode :=
      ← fields.read "control_node" (Json.nullable ControlNode.ofJson?) default.controlNode
    controlNet := ← fields.read "control_net" (Json.nullable Json.string?) default.controlNet
    grid := ← fields.read "grid" Grid.ofJson? default.grid }

def Settings.read (text : String) : Except Error Settings :=
  match (Json.read? text).bind Settings.ofJson? with
  | some settings => .ok settings
  | none => .error .json

end ContactReplay
