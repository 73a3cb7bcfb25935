import CallTrace.FileTree
import CallTrace.Log
import CallTrace.Tool.Run

namespace CallTrace

/-- The code points that standard output has an encoding for. -/
abbrev Charset := CodePoint → Bool

/-- Every character, and no half of a surrogate pair. -/
def Charset.unicode : Charset := fun c => c.char?.isSome

structure Console where
  files : Files
  verbose : Bool := false
  shows : Charset := .unicode
  stdout : Text := []
  stderr : Text := []
  invocations : List Invocation := []

namespace Console

/-- A text is told as a whole, or not at all if some of it has no encoding. -/
def tell (c : Console) (s : Text) : Except Fault Unit × Console :=
  if s.all c.shows then (.ok (), { c with stdout := c.stdout ++ s }) else (.error .unencodable, c)

/-- Where warnings go, what has no encoding is spelled out, so they can always be given. -/
def warn (c : Console) (s : Text) : Console := { c with stderr := c.stderr ++ s }

def warnLine (c : Console) (s : Text) : Console := c.warn (s ++ "\n")

/-- Takes in what a run leaves behind. -/
def absorb (c : Console) (r : Run α) : Console :=
  { c with
    stderr := c.stderr ++ Log.render c.verbose r.log
    invocations := c.invocations ++ r.invocations }

end Console

end CallTrace
