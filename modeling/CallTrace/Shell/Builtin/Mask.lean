import CallTrace.Shell.Builtin.Basic
import CallTrace.Shell.Real

namespace CallTrace.Shell

namespace Builtin

open Shell.Action

/-- The rights of one sort of user, as letters. -/
def rights (n : Nat) : Text :=
  (if n / 4 % 2 = 1 then "r" else [] : Text) ++ (if n / 2 % 2 = 1 then "w" else [] : Text) ++
    (if n % 2 = 1 then "x" else [] : Text)

/-- The rights that letters grant. -/
def ofRights (t : Text) : Nat :=
  (if t.contains 'r' then 4 else 0) + (if t.contains 'w' then 2 else 0) + if t.contains 'x' then 1 else 0

/-- The rights of a user after a change. -/
def changed (sign : CodePoint) (n m : Nat) : Nat :=
  if sign = '=' then m else if sign = '+' then n ||| m else n &&& (7 - m)

/-- The rights of the owner, the group and all others after one change, which letters and a sign tell. -/
def changeRights (t : Text) (now : List Nat) : Option (List Nat) :=
  let users := t.takeWhile ("ugoa" : Text).contains
  match t.drop users.length with
  | sign :: letters =>
    if (sign = '=' || sign = '+' || sign = '-') && letters.all ("rwx" : Text).contains then
      let isAll := users.isEmpty || users.contains 'a'
      some (List.zipWith (fun (user : CodePoint) n =>
        if isAll || users.contains user then changed sign n (ofRights letters) else n) "ugo" now)
    else none
  | [] => none

def umask : Builtin := fun args => do
  let (given, args) ← options "S" [] args
  let mask := (← get).mask
  let now := [7 - mask / 64 % 8, 7 - mask / 8 % 8, 7 - mask % 8]
  match args with
  | [] =>
    if given.isEmpty then
      let digits := Text.ofChars (Nat.toDigits 8 mask)
      write (Real.zeros (4 - digits.length) ++ digits ++ "\n")
    else
      write (Text.join "," (List.zipWith (fun (user : CodePoint) n => user :: .char '=' :: rights n) "ugo" now) ++
        "\n")
  | t :: _ =>
    if t.head?.any CodePoint.isDigit then
      if !t.all Numeral.isOctalDigit then abort ("Illegal number: " ++ t)
      modify fun s => { s with mask := Numeral.ofDigits 8 t % 512 }
      return 0
    match (t.split ',').foldlM (fun now change => changeRights change now) now with
    | some [u, g, o] =>
      modify fun s => { s with mask := (7 - u) * 64 + (7 - g) * 8 + (7 - o) }
      return 0
    | _ => abort ("Illegal mode: " ++ t)

end Builtin

end CallTrace.Shell
