import CallTrace.Text.Basic

namespace CallTrace.Text

/-- Splits at line ends. A line feed, a carriage return and the two in that order each end one line; a
text that ends with a line end has no empty line after it. The first argument is the line so far, last
code point first. -/
def splitLines (line : Text) : Text → List Text
  | [] => if line.isEmpty then [] else [line.reverse]
  | .char '\r' :: .char '\n' :: t => line.reverse :: splitLines [] t
  | .char '\r' :: t => line.reverse :: splitLines [] t
  | .char '\n' :: t => line.reverse :: splitLines [] t
  | c :: t => splitLines (c :: line) t

def lines (t : Text) : List Text := splitLines [] t

end CallTrace.Text
