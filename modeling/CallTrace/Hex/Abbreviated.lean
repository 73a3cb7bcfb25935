import CallTrace.Hex.Quantity
import CallTrace.Octets

namespace CallTrace.Hex

/-- Adds an octet in front of runs. -/
def grow (b : UInt8) : List (UInt8 × Nat) → List (UInt8 × Nat)
  | (c, n) :: rs => if b = c then (c, n + 1) :: rs else (b, 1) :: (c, n) :: rs
  | [] => [(b, 1)]

/-- The longest runs of one octet, with their lengths. -/
def runs (bs : Octets) : List (UInt8 × Nat) := bs.foldr grow []

def runMark : CodePoint := '~'

def runText (least : Int) (run : UInt8 × Nat) : Text :=
  if least ≤ run.2 then pair run.1 ++ runMark :: evenDigits (run.2 - 1) ++ [runMark]
  else pairs (List.replicate run.2 run.1)

/-- Runs at least this long are cut short where nothing else is asked for. -/
def defaultThreshold : Int := 16

def abbreviated (least : Int) (bs : Octets) : Text := marked ((runs bs).flatMap (runText least))

/-- Octets with runs cut short that have some length at least. -/
def encodeAbbreviated (least : Json) (bs : Octets) : Except Fault Text := do
  let x ← least.toNumber
  if x.isBelow (.whole 1) then throw (.badThreshold least)
  return match x.ceiling? with
    | some n => abbreviated n bs
    | none => encode bs

/-- Reads digits and repeat counts in turn, after the octets read so far, last one first. -/
def expand [Limits] (whole : Text) (done : Octets) : List Text → Except Fault Octets
  | [] => .ok done.reverse
  | [part] => do return done.reverseAux (← decode part)
  | part :: count :: parts => do
    let done := (← decode part).reverseAux done
    if count.isEmpty then .error (.emptyMarker whole)
    else match done with
      | [] => .error (.leadingMarker whole)
      | last :: _ =>
        let more ← Octets.repeated (← decodeQuantity count) last
        expand whole (more ++ done) parts

def decodeAbbreviated [Limits] (s : Text) : Except Fault Octets :=
  let parts := (unmark s).split runMark
  if parts.length % 2 = 0 then .error (.unbalancedMarkers s) else expand s [] parts

def abbreviatedOctets [Limits] (j : Json) : Except Fault Octets := text j >>= decodeAbbreviated

/-- Octets in full or with long runs cut short. -/
def encodeOctets (abbreviate : Bool) (bs : Octets) : Text :=
  if abbreviate then abbreviated defaultThreshold bs else encode bs

theorem flatMap_runs (bs : Octets) :
    (runs bs).flatMap (fun r => List.replicate r.2 r.1) = bs := by
  unfold runs
  induction bs with
  | nil => rfl
  | cons b bs ih =>
    rw [List.foldr_cons]
    generalize bs.foldr grow [] = rs at ih ⊢
    match rs, ih with
    | [], ih => simp_all [grow]
    | (c, n) :: rs, ih =>
      simp only [grow]
      split
      · rename_i h; subst h; simpa [List.replicate_succ] using ih
      · simpa using ih

end CallTrace.Hex
