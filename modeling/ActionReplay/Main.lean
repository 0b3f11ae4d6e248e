import ActionReplay.CommandLine.Program

/-!
# The command line

Runs the program on the machine: reads the configuration file, takes lines from standard input and looks
at drop files as their intervals end, keeps the time of replays, and writes records as they are said. What
any of this amounts to is decided in `Program`.
-/

set_option autoImplicit false
set_option relaxedAutoImplicit false

namespace ActionReplay.Main

/-- The content of a file, if it can be read. -/
def contentOf (path : String) : IO (Option (List UInt8)) := do
  try
    let bytes ← IO.FS.readBinFile path
    return some bytes.toList
  catch _ => return none

/-- What is at the path of a drop file. -/
def placeOf (path : String) : IO DropPlace := do
  try
    let found ← (← IO.FS.realPath path).metadata
    match found.type with
    | .file =>
      match ← contentOf path with
      | some content => return .file content found.modified.sec
      | none => return .locked found.byteSize.toNat found.modified.sec
    | _ => return .directory
  catch _ => return .nothing

/-- One line of a stream, without its line feed; none at the end. -/
partial def lineOf (stream : IO.FS.Stream) : IO (Option (List UInt8)) := do
  let rec more (octets : List UInt8) : IO (Option (List UInt8)) := do
    let bytes ← stream.read 1
    match bytes.toList with
    | [] => return if octets.isEmpty then none else some octets.reverse
    | octet :: _ => if octet = 10 then return some octets.reverse else more (octet :: octets)
  more []

def write (threshold : LogLevel) (records : List LogRecord) : IO Unit := do
  for record in records do
    if record.isShownAt threshold then IO.println record.line
  (← IO.getStdout).flush

/-- Performs payloads, each of which takes the time of its ticks. -/
def perform (threshold : LogLevel) (session : Session) (payloads : List Json) : IO Session := do
  let mut session := session
  for payload in payloads do
    IO.sleep (session.duration payload).toUInt32
    let (records, next) := Program.serve session payload
    write threshold records
    session := next
  return session

/-- Looks at a drop file, and deletes it if the feed has taken it. -/
def lookAt (f : DropFile) (watch : DropFile.Watch) : IO DropFile.Stretch := do
  let place ← placeOf f.path
  let stretch := DropFile.Watch.look f true { place, watch }
  if place ≠ .nothing && stretch.place = .nothing then IO.FS.removeFile f.path
  return stretch

/-- A line that is being waited for. -/
abbrev Pending := Task (Except IO.Error (Option (List UInt8)))

/-- Takes a line that has arrived; says whether more lines are wanted. -/
def takeLine (threshold : LogLevel) (session : Session) (line : Option (List UInt8)) :
    IO (Session × Bool) := do
  match line with
  | none =>
    write threshold (Lines.forward true []).records
    return (session, false)
  | some octets =>
    let reading := Lines.read octets
    let (records, ends) := Lines.said true reading
    write threshold records
    return (← perform threshold session (Lines.forwarded true reading), !ends)

/-- Serves the feeds until none is left. Drop files are kept with the time of their next look. -/
partial def serve (threshold : LogLevel) (input : IO.FS.Stream) (session : Session)
    (drops : List (DropFile × DropFile.Watch × Nat)) (pending : Option Pending) : IO Unit := do
  if drops.isEmpty && pending.isNone then return
  let mut session := session
  let mut pending := pending
  if let some task := pending then
    if drops.isEmpty || (← IO.hasFinished task) then
      let line := match ← IO.wait task with
        | .ok line => line
        | .error _ => none
      let (next, wanted) ← takeLine threshold session line
      session := next
      pending ← if wanted then some <$> IO.asTask (lineOf input) else pure none
  let mut later : List (DropFile × DropFile.Watch × Nat) := []
  for (f, watch, due) in drops do
    if due ≤ (← IO.monoMsNow) then
      let stretch ← lookAt f watch
      write threshold stretch.records
      session ← perform threshold session stretch.payloads
      if !stretch.watch.ended then later := later ++ [(f, stretch.watch, due + f.pollMs)]
    else later := later ++ [(f, watch, due)]
  unless later.isEmpty do IO.sleep 1
  serve threshold input session later pending

/-- Starts the feeds of an opened program and serves them. -/
def serveAll (threshold : LogLevel) (opened : Program.Opened) : IO Unit := do
  let now ← IO.monoMsNow
  let drops := opened.feeds.filterMap fun
    | .file path pollMs deletes => some (DropFile.ofConfig path pollMs deletes)
    | .stdin => none
  let input ← IO.getStdin
  let pending ← if opened.feeds.contains .stdin then
      write threshold Lines.greeting
      some <$> IO.asTask (lineOf input)
    else pure none
  write threshold (drops.map DropFile.greeting)
  serve threshold input opened.session (drops.map fun f ↦ (f, {}, now)) pending

/-- Writes what a program that has ended leaves. -/
def close (threshold : LogLevel) (report : Program.Report) : IO UInt32 := do
  write threshold report.records
  if let some text := report.printed then IO.println text
  if let some text := report.complaint then IO.eprintln text
  return report.exitCode

end ActionReplay.Main

open ActionReplay in
def main (args : List String) : IO UInt32 := do
  match Arguments.read args with
  | .error stop => Main.close .info (Program.Report.ofStop stop)
  | .ok arguments =>
    let threshold := Program.threshold arguments (← IO.getEnv "RUST_LOG")
    match Program.opening arguments (← Main.contentOf arguments.configPath) with
    | .error report => Main.close threshold report
    | .ok opened =>
      Main.write threshold opened.records
      Main.serveAll threshold opened
      Main.write threshold [Program.farewell]
      return 0
