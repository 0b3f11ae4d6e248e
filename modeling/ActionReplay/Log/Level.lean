import ActionReplay.Text.Normal

/-!
# Log levels

A level is named in any case, and `warning` is another name of `warn`. A reader who asks for one level is
shown it and every graver one.
-/

set_option autoImplicit false
set_option relaxedAutoImplicit false

namespace ActionReplay

inductive LogLevel where
  | trace
  | debug
  | info
  | warn
  | error
deriving DecidableEq, Inhabited

namespace LogLevel

def all : List LogLevel := [trace, debug, info, warn, error]

def name : LogLevel → String
  | .trace => "trace"
  | .debug => "debug"
  | .info => "info"
  | .warn => "warn"
  | .error => "error"

/-- How a level stands at the head of a log line. -/
def heading : LogLevel → String
  | .trace => "TRACE"
  | .debug => "DEBUG"
  | .info => "INFO"
  | .warn => "WARN"
  | .error => "ERROR"

/-- How grave a level is. -/
def gravity : LogLevel → Nat
  | .trace => 0
  | .debug => 1
  | .info => 2
  | .warn => 3
  | .error => 4

/-- A name that is no level, in lowercase. -/
structure Unknown where
  name : String
deriving DecidableEq, Inhabited

def Unknown.message (u : Unknown) : String :=
  s!"unknown log level '{u.name}'"

def ofName (text : String) : Except Unknown LogLevel :=
  let lowered := Text.lowercase text
  if lowered = "warning" then .ok .warn
  else
    match all.find? fun level ↦ level.name = lowered with
    | some level => .ok level
    | none => .error ⟨lowered⟩

end LogLevel

end ActionReplay
