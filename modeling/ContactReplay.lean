import ContactReplay.Addressing.AddressBook
import ContactReplay.Cli.Disk
import ContactReplay.Contact.Trace
import ContactReplay.Daemon.Configurator
import ContactReplay.GraphStream.Reader
import ContactReplay.GraphStream.Writer
import ContactReplay.Main
import ContactReplay.Proofs.Addressing.Distinctness
import ContactReplay.Proofs.Addressing.Networks
import ContactReplay.Proofs.Addressing.Steadiness
import ContactReplay.Proofs.Cli.Journalling
import ContactReplay.Proofs.Cli.Sparing
import ContactReplay.Proofs.Contact.Columns
import ContactReplay.Proofs.Contact.Lines
import ContactReplay.Proofs.Contact.Locality
import ContactReplay.Proofs.Contact.Naming
import ContactReplay.Proofs.Daemon.Filling
import ContactReplay.Proofs.Daemon.Patchwork
import ContactReplay.Proofs.Daemon.Separation
import ContactReplay.Proofs.GraphStream.Capacity
import ContactReplay.Proofs.GraphStream.Cutting
import ContactReplay.Proofs.GraphStream.Grammar
import ContactReplay.Proofs.GraphStream.Layout
import ContactReplay.Proofs.GraphStream.Reading
import ContactReplay.Proofs.GraphStream.RoundTrip
import ContactReplay.Proofs.GraphStream.Transcript
import ContactReplay.Proofs.GraphStream.Verdict
import ContactReplay.Proofs.GraphStream.Wording
import ContactReplay.Proofs.GraphStream.Writing
import ContactReplay.Proofs.Json.RoundTrip
import ContactReplay.Proofs.Pipeline.Alternation
import ContactReplay.Proofs.Pipeline.Connections
import ContactReplay.Proofs.Pipeline.Enacting
import ContactReplay.Proofs.Pipeline.EndToEnd
import ContactReplay.Proofs.Pipeline.Legibility
import ContactReplay.Proofs.Pipeline.Tallying
import ContactReplay.Proofs.Pipeline.Telling
import ContactReplay.Proofs.Registry.Bindings
import ContactReplay.Proofs.Replay.Acts
import ContactReplay.Proofs.Replay.Answering
import ContactReplay.Proofs.Replay.Asking
import ContactReplay.Proofs.Replay.Briefing
import ContactReplay.Proofs.Replay.Cancelling
import ContactReplay.Proofs.Replay.Configuring
import ContactReplay.Proofs.Replay.Counting
import ContactReplay.Proofs.Replay.Dedication
import ContactReplay.Proofs.Replay.Enrolling
import ContactReplay.Proofs.Replay.Extending
import ContactReplay.Proofs.Replay.Faults
import ContactReplay.Proofs.Replay.Heeding
import ContactReplay.Proofs.Replay.Keeping
import ContactReplay.Proofs.Replay.Limiting
import ContactReplay.Proofs.Replay.Linking
import ContactReplay.Proofs.Replay.Logging
import ContactReplay.Proofs.Replay.Neighbours
import ContactReplay.Proofs.Replay.OpenEdges
import ContactReplay.Proofs.Replay.Pacing
import ContactReplay.Proofs.Replay.Performance
import ContactReplay.Proofs.Replay.Playing
import ContactReplay.Proofs.Replay.Populating
import ContactReplay.Proofs.Replay.Protocol
import ContactReplay.Proofs.Replay.Reaching
import ContactReplay.Proofs.Replay.Reckoning
import ContactReplay.Proofs.Replay.Relabelling
import ContactReplay.Proofs.Replay.Respecting
import ContactReplay.Proofs.Replay.Running
import ContactReplay.Proofs.Replay.Sequencing
import ContactReplay.Proofs.Replay.Sharing
import ContactReplay.Proofs.Replay.Surroundings
import ContactReplay.Proofs.Replay.Timetable
import ContactReplay.Proofs.Replay.Twinning
import ContactReplay.Proofs.Replay.Wiring
import ContactReplay.Proofs.Settings.Delay
import ContactReplay.Proofs.Settings.Placement
import ContactReplay.Proofs.Testbed.Integrity
import ContactReplay.Proofs.Testbed.Journal
import ContactReplay.Proofs.Testbed.Ledger
import ContactReplay.Proofs.Testbed.Orientation
import ContactReplay.Proofs.Text.Occurrence
import ContactReplay.Proofs.Text.Sentence
import ContactReplay.Proofs.Timeline.Coalescing
import ContactReplay.Proofs.Timeline.Component
import ContactReplay.Proofs.Timeline.Intervals
import ContactReplay.Proofs.Timeline.LastStep
import ContactReplay.Proofs.Timeline.Marks
import ContactReplay.Proofs.Timeline.Moments
import ContactReplay.Proofs.Timeline.Offering
import ContactReplay.Proofs.Timeline.Outline
import ContactReplay.Proofs.Timeline.Residue
import ContactReplay.Proofs.Timeline.Retelling
import ContactReplay.Proofs.Timeline.Sweep
import ContactReplay.Registry
import ContactReplay.Replay.Bench
import ContactReplay.Testbed.Journal
import ContactReplay.Timeline.Merger
