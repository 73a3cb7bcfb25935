import CallTrace.Trace.Basic

namespace CallTrace.Trace

def allSteps : Trace → List Step
  | .ended .. => []
  | .step s rest => s :: rest.allSteps
  | .call inner rest => inner.allSteps ++ rest.allSteps

/-- The steps, each with the number of calls around it, for a trace that stands in `k` calls itself. -/
def placed (k : Nat) : Trace → List (Nat × Step)
  | .ended .. => []
  | .step s rest => (k, s) :: rest.placed k
  | .call inner rest => inner.placed (k + 1) ++ rest.placed k

def nested : Trace → List Trace
  | .ended .. => []
  | .step _ rest => rest.nested
  | .call inner rest => inner :: (inner.nested ++ rest.nested)

def mapSteps (f : Step → Step) : Trace → Trace
  | .ended o bs => .ended o bs
  | .step s rest => .step (f s) (rest.mapSteps f)
  | .call inner rest => .call (inner.mapSteps f) (rest.mapSteps f)

theorem map_snd_placed (k : Nat) (t : Trace) : (t.placed k).map Prod.snd = t.allSteps := by
  induction t generalizing k with
  | ended o bs => rfl
  | step s rest ih => simp [placed, allSteps, ih]
  | call inner rest ihInner ihRest => simp [placed, allSteps, ihInner, ihRest]

end CallTrace.Trace
