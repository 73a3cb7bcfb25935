import CallTrace.Shell.Program.Writing

namespace CallTrace.Shell

namespace Program

/-- A count with a letter for its unit. -/
def amount? (t : Text) : Option Nat :=
  match Numeral.digits? 10 CodePoint.isDigit t with
  | some (n, rest) =>
    (([("", 1), ("b", 512), ("k", 1024), ("K", 1024), ("kB", 1000), ("M", 1048576), ("MB", 1000000)] :
      List (Text × Nat)).lookup rest).map (n * ·)
  | none => none

/-- An older way to ask for lines: a hyphen and a number. -/
def withOldCount (args : List Text) : List Text :=
  match args with
  | (.char '-' :: c :: t) :: rest => if c.isDigit then "-n" :: (c :: t) :: rest else args
  | _ => args

/-- What files are told apart by, where there are several. -/
def heading (isFirst : Bool) (name : Text) : Text :=
  (if isFirst then [] else "\n" : Text) ++ "==> " ++ (if name = "-" then ("standard input" : Text) else name) ++ " <==\n"

def front (isBytes : Bool) (n : Nat) (s : Feed) : Option (Text × Feed) :=
  if isBytes then s.take? n else (s.takeLines? n).map fun (t, rest) => (t, rest.withoutBlock t.length)

def head : Program := fun args => withOptions "qvz" "nc" (withOldCount args) (fun o => do
  let isBytes := o.has 'c'
  let given := (o.value? (if isBytes then 'c' else 'n')).getD "10"
  let isNegative := given.startsWith "-"
  match amount? (if isNegative then given.drop 1 else given) with
  | none =>
    complain ((if isBytes then "invalid number of bytes: " else "invalid number of lines: ") ++
      Quoting.inMessage given)
    return 1
  | some n =>
    let names := o.names
    let mut status := 0
    let mut isFirst := true
    for name in names do
      if 1 < names.length then write (heading isFirst name)
      isFirst := false
      if name = "-" && !isNegative then write (← Action.take 0 (front isBytes n))
      else
        match ← source name with
        | .error f =>
          complain (match f with
            | .isDirectory _ => "error reading " ++ always name ++ ": " ++ reason f
            | _ => "cannot open " ++ always name ++ " for reading: " ++ reason f)
          status := 1
        | .ok s =>
          if isNegative then
            match s.all? with
            | none => throw .stuck
            | some t =>
              write (if isBytes then t.take (t.length - n)
                else
                  let ls := lines t
                  Text.concat (ls.take (ls.length - n)))
          else
            match front isBytes n s with
            | some (t, _) => write t
            | none => throw .stuck
    return status) 1

def tail : Program := fun args => withOptions "qvzf" "nc" (withOldCount args) (fun o => do
  let isBytes := o.has 'c'
  let given := (o.value? (if isBytes then 'c' else 'n')).getD "10"
  let isFromStart := given.startsWith "+"
  let digits := if isFromStart || given.startsWith "-" then given.drop 1 else given
  match amount? digits with
  | none =>
    complain ((if isBytes then "invalid number of bytes: " else "invalid number of lines: ") ++
      Quoting.inMessage given)
    return 1
  | some n =>
    let names := o.names
    let mut status := 0
    let mut isFirst := true
    for name in names do
      match ← contents name with
      | .error f =>
        complain ("cannot open " ++ always name ++ " for reading: " ++ reason f)
        status := 1
      | .ok t =>
        if 1 < names.length then write (heading isFirst name)
        isFirst := false
        if isBytes then write (t.drop (if isFromStart then n - 1 else t.length - n))
        else
          let ls := lines t
          write (Text.concat (ls.drop (if isFromStart then n - 1 else ls.length - n)))
    return status) 1

/-- How many words a text holds. -/
def wordCount (inWord : Bool) : Text → Nat
  | [] => if inWord then 1 else 0
  | c :: t =>
    if Numeral.isSpace c then (if inWord then 1 else 0) + wordCount false t else wordCount true t

def wc : Program := fun args => withOptions "lwcmL" [] args (fun o => do
  let all := o.given.isEmpty
  let counts (t : Text) : List Nat :=
    (if all || o.has 'l' then [t.count (CodePoint.char '\n')] else []) ++
      (if all || o.has 'w' then [wordCount false t] else []) ++
      (if o.has 'm' then [(Text.lossyUtf8 (Text.toOctets t)).length] else []) ++
      if all || o.has 'c' then [t.length] else []
  let names := o.names
  let mut status := 0
  let mut total : List Nat := []
  let mut rows : List (List Nat × Text) := []
  for name in names do
    match ← contents name with
    | .error f =>
      complain (inLine name ++ ": " ++ reason f)
      status := 1
      match f with
      | .isDirectory _ => rows := rows ++ [((counts []), name)]
      | _ => pure ⟨⟩
    | .ok t =>
      total := if total.isEmpty then counts t else List.zipWith (· + ·) total (counts t)
      rows := rows ++ [(counts t, if o.operands.isEmpty then [] else name)]
  rows := if 1 < names.length then rows ++ [(if total.isEmpty then counts [] else total, Text.ofString "total")]
    else rows
  let fs ← Action.files
  let sizes := names.map fun name => Kind.ofPath fs name
  let isRegular := sizes.all fun k => match k with
    | .ok (.file _) | .error _ => true
    | _ => false
  let widest := (sizes.map fun k => match k with
    | .ok (.file n) => n
    | _ => 0).foldl (· + ·) 0
  let width :=
    if (counts []).length = 1 && names.length = 1 then 1
    else if names = alone || !isRegular then 7
    else (Text.ofNat widest).length
  for (ns, name) in rows do
    let line := Text.join " " (ns.map (inColumn width))
    write (line ++ (if name.isEmpty then [] else .char ' ' :: name) ++ "\n")
  return status) 1

end Program

end CallTrace.Shell
