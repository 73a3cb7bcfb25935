import CallTrace.Text.Basic

namespace CallTrace

/-- The flags of the command line. -/
inductive Flag where
  | help
  | directory
  | out
  | packed
  | fork
  | pretty
  | abbreviate
  | includes
  | excludes
  | incremental
  | timeout
  | stackSize
  | binary
  | workers
  | verbose
deriving DecidableEq

namespace Flag

def all : List Flag :=
  [.help, .directory, .out, .packed, .fork, .pretty, .abbreviate, .includes, .excludes, .incremental,
    .timeout, .stackSize, .binary, .workers, .verbose]

def names : Flag → List Text
  | .help => ["-h", "--help"]
  | .directory => ["--dir"]
  | .out => ["--out"]
  | .packed => ["--gzip"]
  | .fork => ["--fork"]
  | .pretty => ["--prettify"]
  | .abbreviate => ["--abbreviate"]
  | .includes => ["--includes"]
  | .excludes => ["--excludes"]
  | .incremental => ["--incremental"]
  | .timeout => ["--timeout"]
  | .stackSize => ["--stack-size"]
  | .binary => ["--geth"]
  | .workers => ["--workers"]
  | .verbose => ["-v", "--verbose"]

/-- All its names, as messages give them. -/
def title (f : Flag) : Text := Text.join "/" f.names

def takesValue : Flag → Bool
  | .help | .packed | .pretty | .incremental | .verbose => false
  | _ => true

/-- Every name of a flag, in the order in which they are offered. -/
def spellings : List (Text × Flag) := all.flatMap fun f => f.names.map (·, f)

def named? (name : Text) : Option Flag := name.lookup spellings

/-- The flag of one letter. -/
def lettered? (c : CodePoint) : Option Flag := named? ['-', c]

/-- The names that a text is short for. -/
def abbreviatedBy (s : Text) : List (Text × Flag) := spellings.filter fun e => e.1.startsWith s

end Flag

end CallTrace
