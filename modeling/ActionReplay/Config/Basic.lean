import ActionReplay.Element
import ActionReplay.Text.Normal

/-!
# Configuration

Where payloads come from, which elements are known from the start, and whether a replay keeps the time of
its ticks. `Config.check` states what a configuration must satisfy beyond its form: elements come first, in
the order of their handles, then the feeds in theirs.
-/

set_option autoImplicit false
set_option relaxedAutoImplicit false

namespace ActionReplay

/-- A feed of payloads: a file that is looked at again and again, or the lines of standard input. -/
inductive FeedConfig where
  | file (path : String) (pollMs : Option UInt64) (deleteOnSuccess : Option Bool)
  | stdin
deriving DecidableEq, Inhabited

/-- The word by which a configuration selects a feed. -/
def FeedConfig.name : FeedConfig → String
  | .file .. => "file"
  | .stdin => "stdin"

structure Config where
  feeds : List FeedConfig := []
  elements : Registry := []
  pacing : Bool := true
deriving DecidableEq, Inhabited

/-- Why a configuration is refused. -/
inductive ConfigFault where
  | malformedText
  | malformedStream
  | malformedFile (path : String)
  | unopenedFile (path : String)
  | unreadFile (path : String)
  | emptyHandle
  | negativeSize (handle : String) (bounds : Bounds)
  | emptyPath (feed : Nat)
  | zeroInterval (path : String)
deriving DecidableEq, Inhabited

namespace ConfigFault

def message : ConfigFault → String
  | .malformedText => "Failed to parse JSON config string into Config"
  | .malformedStream => "Failed to parse JSON config from reader"
  | .malformedFile path => s!"Failed to parse JSON config from {path}"
  | .unopenedFile path => s!"Failed to open config file {path}"
  | .unreadFile path => s!"Failed to read config file {path}"
  | .emptyHandle => "Element handles cannot be empty"
  | .negativeSize handle bounds =>
    s!"Element '{handle}' has a negative size ({bounds.width.toInt}x{bounds.height.toInt})"
  | .emptyPath feed => s!"File source at index {feed} has an empty path"
  | .zeroInterval path => s!"File source '{path}' must poll at a non-zero interval"

end ConfigFault

/-- Checks one element. -/
def Registry.checkEntry (handle : String) (bounds : Bounds) : Except ConfigFault Unit :=
  if handle = "" then .error .emptyHandle
  else if bounds.width < 0 || bounds.height < 0 then .error (.negativeSize handle bounds)
  else .ok ()

/-- Checks the feed at a place. -/
def FeedConfig.check (place : Nat) : FeedConfig → Except ConfigFault Unit
  | .file path pollMs _ =>
    if Text.trim path = "" then .error (.emptyPath place)
    else if pollMs = some 0 then .error (.zeroInterval path)
    else .ok ()
  | .stdin => .ok ()

/-- Checks the feeds from a place on. -/
def FeedConfig.checkFrom : Nat → List FeedConfig → Except ConfigFault Unit
  | _, [] => .ok ()
  | place, feed :: rest => do
    feed.check place
    checkFrom (place + 1) rest

namespace Config

/-- A configuration that satisfies every rule, or the first rule it breaks. -/
def check (c : Config) : Except ConfigFault Config := do
  c.elements.forM fun (handle, bounds) ↦ Registry.checkEntry handle bounds
  FeedConfig.checkFrom 0 c.feeds
  return c

end Config

end ActionReplay
