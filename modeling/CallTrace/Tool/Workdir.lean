import CallTrace.FileTree

namespace CallTrace.FileTree

/-- Takes away what lies at a place and below it. -/
def remove (t : FileTree) (p : Place) : FileTree := ⟨t.entries.filter fun e => !p.isPrefixOf e.1⟩

/-- Does some work in a new directory. However the work comes out, the directory is gone afterwards, unless
it is to be kept. -/
def inWorkdir (t : FileTree) (keep : Bool) (p : Place) (work : FileTree → FileTree × α) : FileTree × α :=
  let (t, a) := work (t.put p .directory)
  (if keep then t else t.remove p, a)

end CallTrace.FileTree
