import CallTrace.Text.Basic

namespace CallTrace.Text

/-- Lower case, as far as ASCII letters come of it: the Kelvin sign becomes `k`, a dotted capital I
becomes `i` and a combining dot. Other letters beyond ASCII are kept, since no text this library looks
for holds one. -/
def loweredChar (c : Char) : List Char :=
  if c = '\u212A' then ['k']
  else if c = '\u0130' then ['i', '\u0307']
  else [c.toLower]

def loweredPoint : CodePoint → Text
  | .char c => ofChars (loweredChar c)
  | .half n => [.half n]

def lowered (t : Text) : Text := t.flatMap loweredPoint

/-- Whether `part` stands somewhere in the text. -/
def holds (part : Text) : Text → Bool
  | [] => part.isEmpty
  | c :: t => part.isPrefixOf (c :: t) || holds part t

theorem holds_iff (part t : Text) : holds part t = true ↔ part <:+: t := by
  induction t with
  | nil => simp [holds]
  | cons c t ih => simp [holds, ih, List.infix_cons_iff]

end CallTrace.Text
