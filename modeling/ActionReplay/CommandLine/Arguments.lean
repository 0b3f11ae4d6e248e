import ActionReplay.Log.Level

/-!
# Arguments of the command line

Options are read from left to right. A value follows its option as the next argument, after an equals sign,
or directly after a short name; an argument that begins with a dash is never a value, a lone dash apart. An
option may be given once. Asking for help or for the version ends the reading, and so does the first
mistake.
-/

set_option autoImplicit false
set_option relaxedAutoImplicit false

namespace ActionReplay

structure Arguments where
  config : Option String := none
  dryRun : Bool := false
  logLevel : Option LogLevel := none
  printSchema : Bool := false
deriving DecidableEq, Inhabited

/-- Why no arguments come out of the reading. -/
inductive Arguments.Stop where
  | help
  | version
  | mistake
deriving DecidableEq, Inhabited

namespace Arguments

/-- The configuration that is read when none is named. -/
def usualConfig : String := "config/default.json"

def configPath (a : Arguments) : String :=
  a.config.getD usualConfig

inductive OptionName where
  | config
  | dryRun
  | logLevel
  | printSchema
  | help
  | version
deriving DecidableEq, Inhabited

def longOptions : List (String × OptionName) :=
  [("config", .config), ("dry-run", .dryRun), ("log-level", .logLevel),
    ("print-schema", .printSchema), ("help", .help), ("version", .version)]

def shortOptions : List (Char × OptionName) :=
  [('c', .config), ('h', .help), ('V', .version)]

def OptionName.takesValue : OptionName → Bool
  | .config | .logLevel => true
  | _ => false

/-- Whether an argument can be the value of the option before it. -/
def canBeValue (arg : String) : Bool :=
  arg = "-" || arg.toList.head? ≠ some '-'

/-- Sets an option that takes a value. A path is not empty. -/
def setValue (a : Arguments) (option : OptionName) (value : String) : Except Stop Arguments :=
  match option with
  | .config =>
    if a.config.isSome || value = "" then .error .mistake else .ok { a with config := some value }
  | .logLevel =>
    match a.logLevel, LogLevel.ofName value with
    | none, .ok level => .ok { a with logLevel := some level }
    | _, _ => .error .mistake
  | _ => .error .mistake

/-- Sets an option that takes none. -/
def setFlag (a : Arguments) : OptionName → Except Stop Arguments
  | .dryRun => if a.dryRun then .error .mistake else .ok { a with dryRun := true }
  | .printSchema => if a.printSchema then .error .mistake else .ok { a with printSchema := true }
  | .help => .error .help
  | .version => .error .version
  | _ => .error .mistake

/-- What is left after one argument: the arguments so far, the option whose value comes next, and whether
two bare dashes have ended the options. -/
structure State where
  arguments : Arguments := {}
  awaiting : Option OptionName := none
  ended : Bool := false
deriving Inhabited

/-- Reads what stands after two dashes. -/
def readLong (a : Arguments) (body : List Char) : Except Stop State :=
  let (name, rest) := body.span (· ≠ '=')
  match longOptions.lookup (String.ofList name), rest with
  | none, _ => .error .mistake
  | some option, '=' :: value =>
    if option.takesValue then do
      let a ← a.setValue option (String.ofList value)
      return { arguments := a }
    else .error .mistake
  | some option, _ =>
    if option.takesValue then .ok { arguments := a, awaiting := some option }
    else do
      let a ← a.setFlag option
      return { arguments := a }

/-- Reads what stands after one dash. The value of a short option may follow directly, an equals sign
before it being dropped. -/
def readShort (a : Arguments) : List Char → Except Stop State
  | [] => .error .mistake
  | c :: rest =>
    match shortOptions.lookup c with
    | none => .error .mistake
    | some option =>
      if option.takesValue then
        match rest with
        | [] => .ok { arguments := a, awaiting := some option }
        | '=' :: value => do
          let a ← a.setValue option (String.ofList value)
          return { arguments := a }
        | value => do
          let a ← a.setValue option (String.ofList value)
          return { arguments := a }
      else do
        let a ← a.setFlag option
        return { arguments := a }

/-- Reads one argument. No argument stands for itself, so anything but an option is a mistake. -/
def step (state : State) (arg : String) : Except Stop State :=
  match state.awaiting with
  | some option =>
    if canBeValue arg then do
      let a ← state.arguments.setValue option arg
      return { arguments := a }
    else .error .mistake
  | none =>
    if state.ended then .error .mistake
    else
      match arg.toList with
      | ['-', '-'] => .ok { state with ended := true }
      | '-' :: '-' :: body => readLong state.arguments body
      | '-' :: body => readShort state.arguments body
      | _ => .error .mistake

def read (args : List String) : Except Stop Arguments := do
  let state ← args.foldlM step {}
  if state.awaiting.isSome then .error .mistake else return state.arguments

end Arguments

end ActionReplay
