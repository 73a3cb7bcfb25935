import CallTrace.Batch
import CallTrace.Text.Coloured

namespace CallTrace

/-- What became of a file. -/
inductive Status where
  /-- Its document was there already. -/
  | skipped
  | converted (length : Nat) (failures : List Failure)

namespace Status

def failures : Status → List Failure
  | .skipped => []
  | .converted _ fs => fs

def isClean (s : Status) : Bool := s.failures.isEmpty

/-- From this length on a document's size is told. -/
def million : Nat := 1024 * 1024

def display : Status → Text
  | .skipped => Text.coloured .yellow " [skipped]"
  | .converted length [] =>
    if million ≤ length then Text.coloured .green (" [" ++ Text.ofNat (length / million) ++ "mb]") else []
  | .converted _ fs => Text.coloured .red (" [" ++ Text.ofNat fs.length ++ " instances failed]")

end Status

end CallTrace
