import CallTrace.Trace.Basic

namespace CallTrace.Trace

def endLine (depth : Int) (o : Outcome) (bs : Octets) : Except Fault Text := do
  let dots ← indent depth
  return dots ++ o.name ++
    (if bs.isEmpty then "" else "(" ++ Hex.abbreviated Hex.defaultThreshold bs ++ ")" : Text)

/-- The lines of a trace whose call stands at a depth. -/
def linesAt (depth : Int) : Trace → Except Fault (List Text)
  | .ended o bs => return [← endLine depth o bs]
  | .step s rest => do
    let line ← s.line depth
    return line :: (← rest.linesAt depth)
  | .call inner rest => do
    let inside ← inner.linesAt (depth + 1)
    return inside ++ (← rest.linesAt depth)

/-- Frames that the writing of a call within another one takes. -/
def outlineFrames : Nat := 3

def lines [Limits] (depth : Int) (t : Trace) : Except Fault (List Text) :=
  if Limits.admitsDepth outlineFrames t.nesting then t.linesAt depth else .error .tooDeep

def render [Limits] (depth : Int) (t : Trace) : Except Fault Text := do
  return Text.join "\n" (← t.lines depth)

/-- The lines of a part of a trace that stands at a depth. -/
def Element.lines [Limits] (depth : Int) : Element → Except Fault (List Text)
  | .step s => return [← s.line depth]
  | .call t => t.lines (depth + 1)

end CallTrace.Trace
