import ActionReplay.CommandLine.Arguments
import ActionReplay.Config.Reading
import ActionReplay.Config.Writing
import ActionReplay.Feed.DropFile
import ActionReplay.Feed.Lines
import ActionReplay.Session

/-!
# The program

What the command line does, as a function of its arguments, its environment, the files there are and its
standard input. `Program.opening` goes as far as a session, `Program.serve` performs one payload, and
`Program.run` is the whole of a program that is fed by standard input alone.
-/

set_option autoImplicit false
set_option relaxedAutoImplicit false

namespace ActionReplay.Program

def name : String := "actionforge"

def version : String := "0.1.0"

def record (level : LogLevel) (message : String) (fields : List (String × LogValue)) : LogRecord :=
  { level, target := name, message, fields }

def help : String :=
  "\n".intercalate
    ["Replays W3C WebDriver actions as synthetic desktop input",
      "",
      "Usage: actionforge [OPTIONS]",
      "",
      "Options:",
      "  -c, --config <CONFIG>        Path to the JSON configuration file " ++
        "[default: config/default.json]",
      "      --dry-run                Enable dry-run mode " ++
        "(log input events instead of injecting them)",
      "      --log-level <LOG_LEVEL>  Set log level (trace, debug, info, warn, error). " ++
        "Overrides RUST_LOG",
      "      --print-schema           Print the JSON Schema for the configuration and exit",
      "  -h, --help                   Print help",
      "  -V, --version                Print version"]

/-- How a program ends: its exit code, the records it has written, what else it has printed, and what it
complains about. -/
structure Report where
  exitCode : UInt32
  records : List LogRecord := []
  printed : Option String := none
  complaint : Option String := none
deriving Inhabited

/-- The level from which on records are written: the one asked for, else the one that the environment
names, else `info`. -/
def threshold (a : Arguments) (environment : Option String) : LogLevel :=
  match a.logLevel, environment.map LogLevel.ofName with
  | some level, _ => level
  | none, some (.ok level) => level
  | none, _ => .info

/-- Ends a program that its arguments stop. -/
def Report.ofStop : Arguments.Stop → Report
  | .help => { exitCode := 0, printed := some help }
  | .version => { exitCode := 0, printed := some (name ++ " " ++ version) }
  | .mistake => { exitCode := 2, complaint := some "error: invalid arguments" }

def greeting (a : Arguments) : LogRecord :=
  record .info "Starting Actionforge"
    [("version", .quoted version), ("config", .shown a.configPath), ("dry_run", .bool a.dryRun)]

/-- What is said about a configuration that was loaded. -/
def loaded (c : Config) : List LogRecord :=
  record .debug "Configuration loaded successfully"
      [("elements", .nat c.elements.length), ("pacing", .bool c.pacing)] ::
    if c.feeds.isEmpty then
      [record .warn
        "No payload sources configured. The runtime will wait for Ctrl+C and then exit." []]
    else []

/-- A program that is ready to take payloads. -/
structure Opened where
  records : List LogRecord
  feeds : List FeedConfig
  session : Session

/-- Opens a session with the content of the configuration file, or ends. -/
def opening (a : Arguments) (content : Option (List UInt8)) : Except Report Opened :=
  if a.printSchema then
    .error { exitCode := 0, records := [greeting a], printed := some Config.Schema.text }
  else
    match Config.ofReadFile a.configPath content with
    | .error fault =>
      .error { exitCode := 1, records := [greeting a], complaint := some ("Error: " ++ fault.message) }
    | .ok c =>
      .ok { records := greeting a :: loaded c, feeds := c.feeds,
            session := Session.ofConfig c a.dryRun }

/-- What is said about the answer to a payload. -/
def verdict : Except SessionFault Outcome → List LogRecord
  | .ok outcome =>
    if outcome.succeeded then []
    else
      [record .warn "Actions performed with injection failures"
        [("injected", .nat outcome.injected), ("failed", .nat outcome.failed)]]
  | .error fault =>
    [record .error "Failed to perform actions" [("error", .shown fault.message)]]

/-- Performs a payload. -/
def serve (s : Session) (payload : Json) : List LogRecord × Session :=
  let (answer, records, s) := s.run payload
  (records ++ verdict answer, s)

/-- Performs payloads in order; what was said before is held in reverse. -/
def serveAll (said : List LogRecord × Session) (payloads : List Json) : List LogRecord × Session :=
  payloads.foldl
    (fun (said, s) payload ↦
      let (records, s) := serve s payload
      (records.reverse ++ said, s))
    said

def farewell : LogRecord :=
  record .info "Actionforge exited" []

/-- Keeps the records that are written. -/
def Report.shownAt (threshold : LogLevel) (r : Report) : Report :=
  { r with records := r.records.filter (LogRecord.isShownAt threshold) }

/-- Runs the program on the payloads of its standard input. -/
def run (args : List String) (environment : Option String) (file : String → Option (List UInt8))
    (input : List UInt8) : Report :=
  match Arguments.read args with
  | .error stop => Report.ofStop stop
  | .ok a =>
    let report : Report := match opening a (file a.configPath) with
      | .error report => report
      | .ok opened =>
        let payloads :=
          if opened.feeds.contains .stdin then (Lines.run true input).payloads else []
        let (said, _) := serveAll (opened.records.reverse, opened.session) payloads
        { exitCode := 0, records := said.reverse ++ [farewell] }
    report.shownAt (threshold a environment)

end ActionReplay.Program
