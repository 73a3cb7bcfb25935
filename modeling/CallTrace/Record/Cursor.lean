import CallTrace.Record.Basic

namespace CallTrace

/-- A read head over records: those read, last one first, and those to come. -/
structure Cursor where
  behind : List Record
  ahead : List Record

namespace Cursor

/-- At the start of records, the markers among them left out. -/
def ofRecords (rs : List Record) : Cursor := ⟨[], rs.filter (!·.isMarker)⟩

def records (c : Cursor) : List Record := c.behind.reverse ++ c.ahead

def position (c : Cursor) : Nat := c.behind.length

def size (c : Cursor) : Nat := c.behind.length + c.ahead.length

def remaining (c : Cursor) : Nat := c.ahead.length

def atEnd (c : Cursor) : Bool := c.ahead.isEmpty

def peek? (c : Cursor) : Option Record := c.ahead.head?

def advance (c : Cursor) : Except Fault (Record × Cursor) :=
  match c.ahead with
  | [] => .error .pastEnd
  | r :: rs => .ok (r, ⟨r :: c.behind, rs⟩)

def backtrack (c : Cursor) : Except Fault Cursor :=
  match c.behind with
  | [] => .error .beforeStart
  | r :: rs => .ok ⟨rs, r :: c.ahead⟩

theorem records_advance {c d : Cursor} {r : Record} (h : c.advance = .ok (r, d)) :
    d.records = c.records := by
  obtain ⟨behind, ahead⟩ := c
  cases ahead with
  | nil => simp [advance] at h
  | cons a rs =>
    simp only [advance, Except.ok.injEq, Prod.mk.injEq] at h
    obtain ⟨rfl, rfl⟩ := h
    simp [records]

theorem records_backtrack {c d : Cursor} (h : c.backtrack = .ok d) : d.records = c.records := by
  obtain ⟨behind, ahead⟩ := c
  cases behind with
  | nil => simp [backtrack] at h
  | cons a rs =>
    simp only [backtrack, Except.ok.injEq] at h
    subst h
    simp [records]

end Cursor

end CallTrace
