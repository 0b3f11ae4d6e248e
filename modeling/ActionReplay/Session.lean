import ActionReplay.Config.Basic
import ActionReplay.Desktop.Backend
import ActionReplay.Feed.Payload
import ActionReplay.Replay.Dispatch

/-!
# Sessions

A session performs payloads one after another on one desktop, with the elements known so far. A payload
that does not compile is rejected before anything reaches the desktop. Modifiers never outlive the payload
that pressed them.

A request leaves the records of the session and of the desktop. They are not all that is said: the compiler
and the dispatcher have records of their own, such as the warnings that an event was not delivered or that
a key value is no character, and these are left out, as are all records that only trace the work.
-/

set_option autoImplicit false
set_option relaxedAutoImplicit false

namespace ActionReplay

structure Session where
  pacing : Bool
  elements : Registry
  desktop : Desktop
deriving Inhabited

/-- Why a payload is refused. -/
inductive SessionFault where
  | missingActions
  | fault (f : Fault)
deriving DecidableEq, Inhabited

namespace SessionFault

/-- What is said before the text of a fault. -/
def context : String := "Failed to compile actions: "

def message : SessionFault → String
  | .missingActions => "Payload is missing array field 'actions'"
  | .fault f => context ++ f.message

end SessionFault

namespace Session

/-- A session of a configuration, which knows the elements of the configuration. -/
def ofConfig (c : Config) (dryRun : Bool) : Session :=
  { pacing := c.pacing, elements := c.elements, desktop := { dryRun } }

/-- What a request leaves: its answer, what the session and the desktop said, and the session after it. -/
abbrev Reply (α : Type) := Except SessionFault α × List LogRecord × Session

def record (level : LogLevel) (message : String) (fields : List (String × LogValue)) : LogRecord :=
  { level, target := "actionforge::runtime", message, fields }

/-- Registers an element, and gives the bounds it had before. -/
def register (s : Session) (handle : String) (bounds : Bounds) : Option Bounds × Session :=
  let (previous, elements) := s.elements.register handle bounds
  (previous, { s with elements })

def setDryRun (s : Session) (dryRun : Bool) : Session :=
  { s with desktop := s.desktop.setDryRun dryRun }

/-- What is said when a timeline is about to be replayed. -/
def announcement (s : Session) (t : Timeline) : LogRecord :=
  Desktop.record .debug "Dispatching compiled actions"
    [("ticks", .nat t.size), ("events", .nat t.cueCount), ("pacing", .bool s.pacing)]

/-- What is said about an outcome. -/
def summary (o : Outcome) : LogRecord :=
  if o.succeeded then record .info "Actions performed" [("injected", .nat o.injected)]
  else
    record .warn "Some input events could not be injected"
      [("injected", .nat o.injected), ("failed", .nat o.failed),
        ("partial", .bool o.isPartialFailure)]

/-- Replays a timeline and releases the modifiers it left held. The records are those of the desktop, between
the announcement and the summary; what the dispatcher says of deliveries that failed is not among them. -/
def replay (s : Session) (t : Timeline) : Outcome × List LogRecord × Session :=
  let (outcome, said, desktop) := Desktop.device.dispatch s.pacing ([], s.desktop) t
  let (released, records, desktop) := desktop.releaseModifiers
  let complaint := match released with
    | .ok () => []
    | .error fault =>
      [record .warn "Failed to release modifier keys" [("error", .shown fault.message)]]
  (outcome, s.announcement t :: said.reverse ++ records ++ complaint ++ [summary outcome],
    { s with desktop })

/-- Performs an array of sources. -/
def perform (s : Session) (actions : Json) : Reply Outcome :=
  let greeting := record .info "Performing actions"
    [("sources", .nat ((actions.items?.map List.length).getD 0))]
  match Timeline.compile s.elements.locate actions with
  | .error f => (.error (.fault f), [greeting], s)
  | .ok t =>
    let (outcome, records, s) := s.replay t
    (.ok outcome, greeting :: records, s)

/-- Performs the array that a payload carries. -/
def run (s : Session) (payload : Json) : Reply Outcome :=
  match Payload.actions? payload with
  | some actions => s.perform actions
  | none => (.error .missingActions, [], s)

/-- How long performing a payload takes: the time of its ticks, if the session keeps it. -/
def duration (s : Session) (payload : Json) : Nat :=
  if s.pacing then
    match (Payload.actions? payload).map (Timeline.compile s.elements.locate) with
    | some (.ok t) => t.waits.foldl (· + ·) 0
    | _ => 0
  else 0

end Session

end ActionReplay
