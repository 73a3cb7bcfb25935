import CallTrace.Shell.Builtin.Job
import CallTrace.Shell.Builtin.Mask
import CallTrace.Shell.Builtin.Plain
import CallTrace.Shell.Builtin.Reading
import CallTrace.Shell.Builtin.Variable

namespace CallTrace.Shell

namespace Builtin

open Shell.Action

/-- The commands after whose failure a shell does not go on. -/
def specials : List Text := [
  ":", "break", "continue", "exit", "export", "local", "readonly", "return", "set", "shift", "times", "trap", "unset",
  ".", "eval", "exec"]

/-- The commands that change the shell itself. -/
def changing : List (Text × Builtin) := [
  ("alias", alias_), ("break", leave false), ("cd", cd), ("chdir", cd), ("continue", leave true), ("exit", exit),
  ("export", export_), ("getopts", getopts), ("local", local_), ("read", read), ("readonly", readonly),
  ("return", back), ("set", setAll), ("shift", shift), ("trap", trap), ("umask", umask),
  ("unalias", unalias), ("unset", unset)]

/-- The commands that leave the shell as it is. -/
def keeping : List (Text × Builtin) := [
  (":", nothing 0), ("[", bracket), ("bg", controlled), ("echo", echo), ("false", nothing 1), ("fg", controlled),
  ("jobs", jobs), ("kill", kill), ("printf", printf), ("pwd", pwd), ("test", test), ("times", times),
  ("true", nothing 0), ("ulimit", fun _ => write "unlimited\n"), ("wait", wait)]

/-- The commands here, by name. -/
def all : List (Text × Builtin) := changing ++ keeping

/-- The commands of a shell's own that run other commands. -/
def runners : List Text := [".", "command", "eval", "exec", "hash", "type"]

def isBuiltin (name : Text) : Bool := (all.lookup name).isSome || name.isOneOf runners

end Builtin

end CallTrace.Shell
