import ActionReplay.Feed.Payload
import ActionReplay.Text.Quoted

/-!
# The drop file

A file as a feed: whoever has a payload writes it there, and the feed looks at regular intervals. A feed
that deletes takes every document away once it has read it, so the same document can be dropped again. A
feed that does not delete remembers the length and the time, in whole seconds, of the last file in which
it found a document, and passes over a file with the same two. A file that cannot be read, is blank or
spells no document is left as it is and is not remembered, so that it is read again at the next look.
-/

set_option autoImplicit false
set_option relaxedAutoImplicit false

namespace ActionReplay

/-- What is at the path of a drop file. A file has its content and the time of its last change, in
seconds from the epoch. Of a file that may not be read no more is known than how long it is. -/
inductive DropPlace where
  | nothing
  | directory
  | locked (length : Nat) (changed : Int)
  | file (content : List UInt8) (changed : Int)
deriving DecidableEq, Inhabited

structure DropFile where
  path : String
  pollMs : Nat
  deletes : Bool
deriving DecidableEq, Inhabited

namespace DropFile

/-- The interval of a feed that asks for none, and the shortest there is. -/
def usualPollMs : Nat := 100
def shortestPollMs : Nat := 10

def ofConfig (path : String) (pollMs : Option UInt64) (deleteOnSuccess : Option Bool) : DropFile :=
  { path
    pollMs := max ((pollMs.map UInt64.toNat).getD usualPollMs) shortestPollMs
    deletes := deleteOnSuccess.getD false }

/-- A feed as a diagnostic shows it. -/
def describe (f : DropFile) : String :=
  s!"FileSource \x7b path: {Text.quoted f.path}, poll_ms: {f.pollMs}, " ++
    s!"delete_on_success: {f.deletes} \x7d"

/-- What tells two contents apart without reading them. -/
structure Signature where
  length : Nat
  seconds : Nat
deriving DecidableEq, Inhabited

/-- Times before the epoch count as the epoch. -/
def signature (length : Nat) (changed : Int) : Signature :=
  { length, seconds := changed.toNat }

/-- What one look leaves: what is at the path, the signature remembered, the payload forwarded, what was
said, and whether the feed has ended. -/
structure Look where
  place : DropPlace
  remembered : Option Signature
  payload : Option Json := none
  records : List LogRecord := []
  ended : Bool := false
deriving Inhabited

/-- What is said when a payload is handed on, or cannot be. -/
def farewell : List LogRecord :=
  [Payload.record .error "Channel closed; FileSource terminating" [],
    Payload.record .info "FileSource task ended" []]

def forwardedRecord : LogRecord :=
  Payload.record .info "Forwarded payload from file" []

/-- What is said about a file that cannot be read as text. -/
def unreadRecord : LogRecord :=
  Payload.record .warn "Failed to read file" []

/-- Takes a document that was found: it is deleted or remembered first, and then forwarded if it is a
payload. -/
def take (f : DropFile) (isOpen : Bool) (place : DropPlace) (remembered : Option Signature)
    (found : Signature) (document : Json) : Look :=
  let place := if f.deletes then .nothing else place
  let remembered := if f.deletes then remembered else some found
  match Payload.normalize document with
  | none => { place, remembered, records := [Payload.refusal document] }
  | some payload =>
    if isOpen then { place, remembered, payload := some payload, records := [forwardedRecord] }
    else { place, remembered, records := farewell, ended := true }

/-- Reads a file that was not passed over. -/
def readContent (f : DropFile) (isOpen : Bool) (remembered : Option Signature)
    (content : List UInt8) (changed : Int) : Look :=
  let place := DropPlace.file content changed
  match Text.decode? content with
  | none => { place, remembered, records := [unreadRecord] }
  | some text =>
    let text := Text.trim text
    if text = "" then { place, remembered }
    else
      match Json.read text with
      | none =>
        { place, remembered,
          records := [Payload.record .warn "Failed to parse JSON; will retry" []] }
      | some document =>
        f.take isOpen place remembered (signature content.length changed) document

/-- A feed that does not delete leaves a file with the signature that it remembers alone. -/
def passesOver (f : DropFile) (remembered : Option Signature) (found : Signature) : Bool :=
  !f.deletes && remembered = some found

/-- One look at the path. -/
def look (f : DropFile) (isOpen : Bool) (remembered : Option Signature) (place : DropPlace) : Look :=
  match place with
  | .nothing => { place, remembered }
  | .directory =>
    { place, remembered,
      records := [Payload.record .warn "Path exists but is not a regular file" []] }
  | .locked length changed =>
    if f.passesOver remembered (signature length changed) then { place, remembered }
    else { place, remembered, records := [unreadRecord] }
  | .file content changed =>
    if f.passesOver remembered (signature content.length changed) then { place, remembered }
    else f.readContent isOpen remembered content changed

/-! ### Looking at intervals -/

/-- A feed at work: what it remembers, how long it is until its next look, and whether it has ended. -/
structure Watch where
  remembered : Option Signature := none
  wait : Nat := 0
  ended : Bool := false
deriving DecidableEq, Inhabited

/-- What a stretch of time leaves. -/
structure Stretch where
  place : DropPlace
  watch : Watch
  payloads : List Json := []
  records : List LogRecord := []
deriving Inhabited

/-- What is said when a feed starts. -/
def greeting (f : DropFile) : LogRecord :=
  Payload.record .info "FileSource task started"
    [("poll_ms", .nat f.pollMs), ("delete_on_success", .bool f.deletes)]

/-- One look, after which the next is an interval away. -/
def Watch.look (f : DropFile) (isOpen : Bool) (s : Stretch) : Stretch :=
  if s.watch.ended then s
  else
    let seen := f.look isOpen s.watch.remembered s.place
    { place := seen.place
      watch := { remembered := seen.remembered, wait := f.pollMs, ended := seen.ended }
      payloads := s.payloads ++ seen.payload.toList
      records := s.records ++ seen.records }

/-- How many looks fall into a stretch that begins `wait` before the next one: those that are due before
its end. A look that is due at the end belongs to the stretch that follows. -/
def looksWithin (f : DropFile) (wait duration : Nat) : Nat :=
  if duration ≤ wait then 0 else (duration - wait - 1) / f.pollMs + 1

/-- Lets time pass while what is at the path changes only by the feed's own looks. -/
def Watch.elapse (f : DropFile) (isOpen : Bool) (watch : Watch) (place : DropPlace)
    (duration : Nat) : Stretch :=
  let count := f.looksWithin watch.wait duration
  let stretch := (List.range count).foldl (fun s _ ↦ Watch.look f isOpen s) { place, watch }
  { stretch with
    watch := { stretch.watch with wait := watch.wait + count * f.pollMs - duration } }

end DropFile

end ActionReplay
