import CallTrace.Text.Basic

namespace CallTrace.Log

inductive Level where
  | debug
  | info
  | warning
deriving DecidableEq

def Level.name : Level → Text
  | .debug => "DEBUG"
  | .info => "INFO"
  | .warning => "WARNING"

/-- Something worth telling, and the part of the program that tells it. -/
structure Entry where
  level : Level
  source : Text
  text : Text
deriving DecidableEq

/-- Whether an entry is written; only warnings are, unless all is asked for. -/
def Entry.isShown (verbose : Bool) (e : Entry) : Bool := verbose || e.level = .warning

def Entry.line (e : Entry) : Text := e.level.name ++ " " ++ e.source ++ ": " ++ e.text ++ "\n"

def render (verbose : Bool) (log : List Entry) : Text :=
  Text.concat ((log.filter (·.isShown verbose)).map Entry.line)

end CallTrace.Log
