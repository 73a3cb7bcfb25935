import CallTrace.Shell.Builtin.Option

namespace CallTrace.Shell

namespace Builtin

open Shell.Action

def listing (opening : Text) (vs : List (Text × Variable)) : Text :=
  let sorted := vs.mergeSort fun a b => a.1.atMost b.1
  Text.concat (sorted.map fun (name, v) =>
    opening ++ name ++
      (match v.value with
        | some t => "=" ++ readable t
        | none => []) ++ "\n")

def setAll : Builtin := fun args => do
  if args.isEmpty then
    return ← write (listing [] ((← get).bindings.filter fun v => v.2.value.isSome))
  match ← setOptions args with
  | none => return 0
  | some arguments =>
    modify fun s => { s with arguments }
    return 0

/-- Sets what is particular about variables, which may get values. -/
def mark (opening : Text) (isMarked : Variable → Bool) (f : Variable → Variable) : Builtin := fun args => do
  let (_, args) ← options "p" [] args
  if args.isEmpty then
    return ← write (listing (opening ++ " ") ((← get).bindings.filter fun v => isMarked v.2))
  for arg in args do
    let (name, value?) := assignment arg
    checkName name
    match value? with
    | some value => assign name value
    | none => pure ⟨⟩
    setVariable name (f ((← heldVariable name).getD {}))
  return 0

def export_ : Builtin := mark "export" Variable.isExported fun v => { v with isExported := true }

def readonly : Builtin := mark "readonly" Variable.isFixed fun v => { v with isFixed := true }

def local_ : Builtin := fun args => do
  for arg in args do
    let (name, value?) := assignment arg
    match (← get).saved with
    | [] => abort "not in a function"
    | frame :: frames =>
      if arg = "-" then
        modify fun s => { s with savedOptions := match s.savedOptions with
          | options :: more => some (options.getD s.options) :: more
          | [] => [] }
        continue
      checkName name
      let v := (← heldVariable name).getD {}
      if (frame.lookup name).isNone then
        modify fun s => { s with saved := ((name, v) :: frame) :: frames }
    match value? with
    | some value => assign name value
    | none => pure ⟨⟩
  if (← get).saved.isEmpty then abort "not in a function"
  return 0

def unset : Builtin := fun args => do
  let (given, args) ← options "vf" [] args
  let isFunction := given.any (·.1 = .char 'f')
  for name in args do
    if isFunction then modify fun s => { s with functions := s.functions.filter (·.1 ≠ name) }
    else
      checkName name
      if ((← heldVariable name).any Variable.isFixed) then abort (name ++ ": is read only")
      modify fun s => { s with bindings := s.bindings.filter (·.1 ≠ name) }
  return 0

/-- What an alias is listed as. -/
def aliasLine (name text : Text) : Text := name ++ "=" ++ readable text ++ "\n"

def alias_ : Builtin := fun args => do
  if args.isEmpty then return ← write (Text.concat ((← get).aliases.map fun (name, t) => aliasLine name t))
  let mut status := 0
  for arg in args do
    let (name, value?) := assignment arg
    match value? with
    | some value => modify fun s => { s with
        aliases := s.aliases.filter (·.1 ≠ name) ++ [(name, value)] }
    | none =>
      match (← get).aliases.lookup name with
      | some value => status := max status (← write (aliasLine name value))
      | none =>
        tell ("alias: " ++ name ++ " not found\n")
        status := 1
  return status

def unalias : Builtin := fun args => do
  let (given, args) ← options "a" [] args
  if !given.isEmpty then modify fun s => { s with aliases := [] }
  let mut status := 0
  for name in args do
    if ((← get).aliases.lookup name).isNone then
      tell ("unalias: " ++ name ++ " not found\n")
      status := 1
    modify fun s => { s with aliases := s.aliases.filter (·.1 ≠ name) }
  return status

end Builtin

end CallTrace.Shell
