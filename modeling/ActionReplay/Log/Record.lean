import ActionReplay.Decimal.Layout
import ActionReplay.Log.Level
import ActionReplay.Text.Quoted

/-!
# Log records

What the program says about its work: a level, the part of the program that speaks, a message and named
fields in order. `LogRecord.line` is a record as it stands on a console, after the time.
-/

set_option autoImplicit false
set_option relaxedAutoImplicit false

namespace ActionReplay

/-- A field is a flag, a number, a text shown as it is, or a text shown in quotes. -/
inductive LogValue where
  | bool (b : Bool)
  | nat (n : Nat)
  | float (x : Float)
  | shown (s : String)
  | quoted (s : String)
deriving Inhabited

structure LogRecord where
  level : LogLevel
  target : String
  message : String
  fields : List (String × LogValue) := []
deriving Inhabited

namespace LogValue

def render : LogValue → String
  | .bool b => if b then "true" else "false"
  | .nat n => toString n
  | .float x => Decimal.render Decimal.consoleLayout x
  | .shown s => s
  | .quoted s => Text.quoted s

end LogValue

namespace LogRecord

/-- Whether a reader who asks for a level is shown a record. -/
def isShownAt (threshold : LogLevel) (r : LogRecord) : Bool :=
  threshold.gravity ≤ r.level.gravity

def line (r : LogRecord) : String :=
  " ".intercalate
    ((r.level.heading ++ " " ++ r.target ++ ":") :: r.message ::
      r.fields.map fun (name, value) ↦ name ++ "=" ++ value.render)

end LogRecord

end ActionReplay
