import CallTrace.Shell.Escape
import CallTrace.Shell.Pattern
import CallTrace.Shell.Program.Basic

namespace CallTrace.Shell

namespace Program

/-- The octets that a set names, signs behind backslashes having been read. A code point that was read so has
no other meaning. -/
def setMembers (passed : Nat) : Pattern → Text
  | [] => []
  | c :: cs =>
    if 0 < passed then setMembers (passed - 1) cs
    else
      match if c.isSign '[' then Pattern.class? cs else none with
      | some (ranges, n) =>
        (ranges.flatMap fun (low, high) =>
          (List.range' low.toNat (high.toNat + 1 - low.toNat)).map CodePoint.ofNat) ++ setMembers n cs
      | none =>
        match cs with
        | hyphen :: high :: _ =>
          if hyphen.isSign '-' then
            (List.range' c.point.toNat (high.point.toNat + 1 - c.point.toNat)).map CodePoint.ofNat ++
              setMembers 2 cs
          else c.point :: setMembers 0 cs
        | _ => c.point :: setMembers 0 cs

/-- A set with its signs read, so many code points being passed over. -/
def setLetters (passed : Nat) : Text → Pattern
  | [] => []
  | c :: t =>
    if 0 < passed then setLetters (passed - 1) t
    else if c = '\\' then
      match { Escapes.inside with longOctal := false, stops := false }.read t with
      | .octets ['\\'] 0 =>
        match t with
        | d :: _ => ⟨d, true⟩ :: setLetters 1 t
        | [] => [⟨'\\', true⟩]
      | .octets bs n => Pattern.ofText true bs ++ setLetters n t
      | _ => setLetters 0 t
    else ⟨c, false⟩ :: setLetters 0 t

def ofSet (t : Text) : Text := setMembers 0 (setLetters 0 t)

/-- Leaves one of several equal code points in a row, where a set holds it. -/
def squeezed (set : Text) (last : Option CodePoint) : Text → Text
  | [] => []
  | c :: t => if last = some c && set.contains c then squeezed set last t else c :: squeezed set (some c) t

/-- What a code point becomes that stands in one set, by its place in another. -/
def exchanged (old new : Text) (c : CodePoint) : CodePoint :=
  match old.reverse.findIdx? (· = c) with
  | some n => (new[old.length - 1 - n]?).getD (new.getLastD c)
  | none => c

/-- Filters text that may go on for ever. -/
def filter (f : Text → Text) : Action Nat := do
  match ← source "-" with
  | .error _ => return 1
  | .ok s =>
    write (f s.text)
    match s.tail with
    | .ending => return 0
    | .again t => writeForever (f t)
    | .silence => throw .stuck

def tr : Program := fun args => withOptions "cCdst" [] args (fun o => do
  let octets := (List.range 256).map CodePoint.ofNat
  let complement := o.has 'c' || o.has 'C'
  let first (t : Text) : Text :=
    if complement then octets.filter (!(ofSet t).contains ·) else ofSet t
  match o.operands with
  | [] => misuse "missing operand" 1
  | [a] =>
    let set := first a
    if o.has 'd' then filter fun t => t.filter (!set.contains ·)
    else if o.has 's' then filter (squeezed set none)
    else
      misuse ("missing operand after " ++ Quoting.inMessage a ++
        "\nTwo strings must be given when translating.") 1
  | [a, b] =>
    let old := first a
    let new := ofSet b
    if o.has 'd' then
      if o.has 's' then filter fun t => squeezed new none (t.filter (!old.contains ·))
      else
        misuse ("extra operand " ++ Quoting.inMessage b ++
          "\nOnly one string may be given when deleting without squeezing repeats.") 1
    else if new.isEmpty then
      complain "when not truncating set1, string2 must be non-empty"
      return 1
    else filter fun t =>
      let t := t.map (exchanged old new)
      if o.has 's' then squeezed new none t else t
  | _ :: _ :: c :: _ => misuse ("extra operand " ++ Quoting.inMessage c) 1) 1

end Program

end CallTrace.Shell
