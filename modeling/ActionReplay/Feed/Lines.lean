import ActionReplay.Feed.Payload

/-!
# The line feed

Standard input as a feed: each line is a document of its own. Blank lines are passed over, and lines that
spell no document or no payload are reported and passed over. The feed ends with its input, at a line that
is not UTF-8, and when nobody takes a payload any more.
-/

set_option autoImplicit false
set_option relaxedAutoImplicit false

namespace ActionReplay.Lines

/-- What a line amounts to. -/
inductive Reading where
  | undecodable
  | blank
  | malformed (line : String)
  | refused (document : Json)
  | payload (p : Json)

/-- Reads one line. -/
def read (line : List UInt8) : Reading :=
  match Text.decode? line with
  | none => .undecodable
  | some text =>
    let text := Text.trim text
    if text = "" then .blank
    else
      match Json.read text with
      | none => .malformed text
      | some document =>
        match Payload.normalize document with
        | none => .refused document
        | some p => .payload p

/-- What a feed has forwarded and said when it ends, and how often it has counted a payload as sent. -/
structure Report where
  payloads : List Json := []
  records : List LogRecord := []
  sent : Nat := 0
deriving Inhabited

def Report.after (payloads : List Json) (records : List LogRecord) (later : Report) : Report :=
  { payloads := payloads ++ later.payloads
    records := records ++ later.records
    sent := payloads.length + later.sent }

/-- What is said about a line, and whether it ends the feed. -/
def said (isOpen : Bool) : Reading → List LogRecord × Bool
  | .undecodable =>
    ([Payload.record .warn "Error reading from stdin; terminating task" []], true)
  | .blank => ([], false)
  | .malformed line =>
    ([Payload.record .warn "Failed to parse stdin JSON line" [("line", .quoted line)]], false)
  | .refused document => ([Payload.refusal document], false)
  | .payload _ =>
    if isOpen then ([], false)
    else
      ([Payload.record .error "Channel closed while sending stdin payload; terminating task" []],
        true)

/-- The payload that a line forwards. -/
def forwarded (isOpen : Bool) : Reading → List Json
  | .payload p => if isOpen then [p] else []
  | _ => []

/-- Forwards the payloads of lines to a taker that is there or not. -/
def forward (isOpen : Bool) : List (List UInt8) → Report
  | [] => { records := [Payload.record .info "EOF on stdin; StdinSource exiting" []] }
  | line :: rest =>
    let reading := read line
    let (records, ends) := said isOpen reading
    if ends then { payloads := [], records }
    else (forward isOpen rest).after (forwarded isOpen reading) records

/-- What is said when the feed starts. -/
def greeting : List LogRecord :=
  [Payload.record .info "Starting source task" [("source", .shown "stdin")],
    Payload.record .info "StdinSource task started (reading lines)" []]

/-- Runs the feed over a whole input. -/
def run (isOpen : Bool) (input : List UInt8) : Report :=
  (forward isOpen (Text.lines input)).after [] greeting

end ActionReplay.Lines
