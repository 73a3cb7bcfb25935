import CallTrace.Text.Basic

namespace CallTrace.Text

inductive Colour where
  | red
  | green
  | yellow
deriving DecidableEq

def Colour.code : Colour → Nat
  | .red => 31
  | .green => 32
  | .yellow => 33

/-- A text in a colour, as a terminal shows it. -/
def coloured (c : Colour) (t : Text) : Text := "\x1b[" ++ ofNat c.code ++ "m" ++ t ++ "\x1b[0m"

end CallTrace.Text
