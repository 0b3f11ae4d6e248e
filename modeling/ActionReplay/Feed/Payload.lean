import ActionReplay.Json.Document
import ActionReplay.Log.Record
import ActionReplay.Text.Normal

/-!
# Payloads

A payload is an object whose `actions` member is an array. A bare array is taken for that member; any
other document is refused. `Payload.ofText` is what feeds do with a text: blank space around it is dropped,
and the rest must spell one document.
-/

set_option autoImplicit false
set_option relaxedAutoImplicit false

namespace ActionReplay.Payload

/-- The array that a payload carries, if the value is one. -/
def actions? (v : Json) : Option Json :=
  (v.member? "actions").filter fun actions ↦ actions.items?.isSome

/-- The payload that a document stands for. -/
def normalize (v : Json) : Option Json :=
  match v with
  | .array items => some (.object [("actions", .array items)])
  | v => if (actions? v).isSome then some v else none

/-- What feeds say. -/
def record (level : LogLevel) (message : String) (fields : List (String × LogValue)) : LogRecord :=
  { level, target := "actionforge::sources", message, fields }

/-- What is said about a document that is no payload. -/
def refusal (v : Json) : LogRecord :=
  record .warn "Ignoring payload without an 'actions' array" [("kind", .quoted v.kind)]

/-- The payload that a document stands for, and what is said about it. -/
def accept (v : Json) : Option Json × List LogRecord :=
  match normalize v with
  | some payload => (some payload, [])
  | none => (none, [refusal v])

/-- The document that a text spells between blank space. -/
def document? (text : String) : Option Json :=
  Json.read (Text.trim text)

end ActionReplay.Payload
