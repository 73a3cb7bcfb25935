import CallTrace.Fault

namespace CallTrace.Path

def isSlash (c : CodePoint) : Bool := c = '/'

def isAbsolute (path : Text) : Bool := path.head? = some (.char '/')

def endsInSlash (path : Text) : Bool := path.getLast? = some (.char '/')

/-- A path below a directory; one that is absolute stands for itself. -/
def join (directory path : Text) : Text :=
  if isAbsolute path then path
  else if directory.isEmpty || endsInSlash directory then directory ++ path
  else directory ++ "/" ++ path

/-- The names in a path, with an empty name for each slash that has none before or after it. -/
def names (path : Text) : List Text := path.split '/'

/-- Names as a path. -/
def ofNames (names : List Text) : Text := Text.join "/" names

/-- What stands behind the last slash. -/
def basename (path : Text) : Text := (names path).getLastD []

/-- Drops slashes at the end, unless there is nothing else. -/
def dropSlashes (path : Text) : Text :=
  if path.all isSlash then path else (path.reverse.dropWhile isSlash).reverse

/-- What stands before the last slash. -/
def dirname (path : Text) : Text := dropSlashes (path.reverse.dropWhile (!isSlash ·)).reverse

/-- The slashes that an absolute path keeps in front: two stay two. -/
def root (path : Text) : Text :=
  match (path.takeWhile isSlash).length with
  | 0 => ""
  | 2 => "//"
  | _ => "/"

def counts (name : Text) : Bool := name ≠ "" && name ≠ "."

/-- A path without repeated slashes and names that say nothing. -/
def tidy (path : Text) : Text :=
  let path := root path ++ ofNames ((names path).filter counts)
  if path.isEmpty then "." else path

/-- The octets of a text that the system is asked with. They hold no zero. -/
def octets (path : Text) : Except Fault Octets :=
  match path.fileOctets? with
  | none => .error .unencodable
  | some bs => if bs.contains 0 then .error .zeroInName else .ok bs

end CallTrace.Path
