import ActionReplay.Clock
import ActionReplay.CommandLine.Arguments
import ActionReplay.CommandLine.Program
import ActionReplay.Config.Basic
import ActionReplay.Config.Reading
import ActionReplay.Config.Writing
import ActionReplay.Decimal.Layout
import ActionReplay.Decimal.Shortest
import ActionReplay.Desktop.Backend
import ActionReplay.Desktop.Key
import ActionReplay.Element
import ActionReplay.Feed.DropFile
import ActionReplay.Feed.Lines
import ActionReplay.Feed.Payload
import ActionReplay.Json.Basic
import ActionReplay.Json.Document
import ActionReplay.Json.Number
import ActionReplay.Json.Printer
import ActionReplay.Key.Basic
import ActionReplay.Key.Held
import ActionReplay.Log.Level
import ActionReplay.Log.Record
import ActionReplay.Main
import ActionReplay.Position.Memo
import ActionReplay.Position.Resolution
import ActionReplay.Proofs.Config.Reloaded
import ActionReplay.Proofs.Contact.Holds
import ActionReplay.Proofs.Contact.Shared
import ActionReplay.Proofs.Contact.Turns
import ActionReplay.Proofs.Desktop.Calls
import ActionReplay.Proofs.Desktop.Flags
import ActionReplay.Proofs.Desktop.Held
import ActionReplay.Proofs.Feed.Consumed
import ActionReplay.Proofs.Feed.DropFile
import ActionReplay.Proofs.Feed.Lines
import ActionReplay.Proofs.Feed.Remembered
import ActionReplay.Proofs.Hover.Brackets
import ActionReplay.Proofs.Json.Documents
import ActionReplay.Proofs.Json.Number
import ActionReplay.Proofs.Json.Tokens
import ActionReplay.Proofs.Position.Asked
import ActionReplay.Proofs.Position.Memo
import ActionReplay.Proofs.Position.Resolvable
import ActionReplay.Proofs.Replay.Conserved
import ActionReplay.Proofs.Replay.Dates
import ActionReplay.Proofs.Replay.Dispatch
import ActionReplay.Proofs.Replay.Down
import ActionReplay.Proofs.Replay.Gestures
import ActionReplay.Proofs.Replay.Grip
import ActionReplay.Proofs.Replay.Hover
import ActionReplay.Proofs.Replay.Listed
import ActionReplay.Proofs.Replay.Live
import ActionReplay.Proofs.Replay.Modifiers
import ActionReplay.Proofs.Replay.Rests
import ActionReplay.Proofs.Replay.Run
import ActionReplay.Proofs.Replay.Settled
import ActionReplay.Proofs.Replay.SinglePointer
import ActionReplay.Proofs.Replay.Ticks
import ActionReplay.Proofs.Replay.Touches
import ActionReplay.Proofs.Replay.Watched
import ActionReplay.Proofs.Session.DryRun
import ActionReplay.Proofs.Session.Elements
import ActionReplay.Proofs.Session.Isolated
import ActionReplay.Proofs.Session.Payloads
import ActionReplay.Proofs.Source.Accepted
import ActionReplay.Proofs.Source.Consistent
import ActionReplay.Proofs.Source.Grammar
import ActionReplay.Proofs.Source.Ignored
import ActionReplay.Proofs.Source.References
import ActionReplay.Proofs.Source.Sent
import ActionReplay.Proofs.Source.Spelled
import ActionReplay.Proofs.Success
import ActionReplay.Proofs.Table
import ActionReplay.Proofs.Text.Compared
import ActionReplay.Proofs.Text.Octets
import ActionReplay.Proofs.Timeline.Alone
import ActionReplay.Proofs.Timeline.Apart
import ActionReplay.Proofs.Timeline.Booking
import ActionReplay.Proofs.Timeline.Clock
import ActionReplay.Proofs.Timeline.Elements
import ActionReplay.Proofs.Timeline.Faults
import ActionReplay.Proofs.Timeline.Keys
import ActionReplay.Proofs.Timeline.Merge
import ActionReplay.Proofs.Timeline.Pointers
import ActionReplay.Proofs.Timeline.Recorded
import ActionReplay.Proofs.Timeline.Resolved
import ActionReplay.Proofs.Timeline.Rests
import ActionReplay.Proofs.Timeline.Scanned
import ActionReplay.Proofs.Timeline.Shared
import ActionReplay.Proofs.Timeline.Span
import ActionReplay.Proofs.Timeline.Tools
import ActionReplay.Proofs.Timeline.Volume
import ActionReplay.Proofs.Track.Clock
import ActionReplay.Proofs.Track.Contacts
import ActionReplay.Proofs.Track.Faults
import ActionReplay.Proofs.Track.Hover
import ActionReplay.Proofs.Track.KeyAct
import ActionReplay.Proofs.Track.Origin
import ActionReplay.Proofs.Track.Playable
import ActionReplay.Proofs.Track.PointerAct
import ActionReplay.Proofs.Track.Samples
import ActionReplay.Proofs.Track.Span
import ActionReplay.Proofs.Track.Tellable
import ActionReplay.Proofs.Track.Words
import ActionReplay.Replay.Delivery
import ActionReplay.Replay.Dispatch
import ActionReplay.Replay.Event
import ActionReplay.Replay.Gesture
import ActionReplay.Replay.Signal
import ActionReplay.Session
import ActionReplay.Source.Accepted
import ActionReplay.Source.Basic
import ActionReplay.Source.Fault
import ActionReplay.Source.Reading
import ActionReplay.Table
import ActionReplay.Text.CaseTable
import ActionReplay.Text.Normal
import ActionReplay.Text.Octets
import ActionReplay.Text.Quoted
import ActionReplay.Text.Unprintable
import ActionReplay.Timeline.Basic
import ActionReplay.Timeline.Compile
import ActionReplay.Timeline.Contact
import ActionReplay.Timeline.Cue
import ActionReplay.Track.Keyboard
import ActionReplay.Track.Pointer
import ActionReplay.Track.Rest
