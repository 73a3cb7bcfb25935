import CallTrace.Shell.Program.Basic

namespace CallTrace.Shell

namespace Program

def basename : Program := fun args =>
  match args with
  | [] => misuse "missing operand" 1
  | path :: more => do
    let path := Path.dropSlashes path
    let name : Text := if path.all Path.isSlash then path.take 1 else Path.basename path
    let ending := more.headD []
    write ((if name.endsWith ending && name ≠ ending then name.take (name.length - ending.length) else name) ++
      "\n")
    return 0

def dirname : Program := fun args =>
  match args with
  | [] => misuse "missing operand" 1
  | paths => do
    for path in paths do
      let path := Path.dropSlashes path
      let above := if path.all Path.isSlash then path.take 1 else Path.dirname path
      let above := if path.contains (CodePoint.char '/') then if above.all Path.isSlash then ("/" : Text) else above
        else "."
      write (above ++ "\n")
    return 0

/-- The names in a directory, in order. -/
def namesIn (fs : Files) (path : Text) (all : Bool) : List Text :=
  match fs.place path with
  | .error _ => []
  | .ok p =>
    Text.sorted (((fs.tree.below p).filterMap fun (names, _) => match names with
      | [name] => if all || !name.startsWith "." then some name else none
      | _ => none))

def ls : Program := fun args => withOptions "1aAdflrtFR" [] args (fun o => do
  let names := if o.operands.isEmpty then [Text.ofString "."] else o.operands
  let fs ← Action.files
  let mut status := 0
  let mut plain : List Text := []
  let mut directories : List Text := []
  for name in names do
    match Kind.ofPath fs name with
    | .error f =>
      complain ("cannot access " ++ always name ++ ": " ++ reason f)
      status := 2
    | .ok .directory => if o.has 'd' then plain := plain ++ [name] else directories := directories ++ [name]
    | .ok _ => plain := plain ++ [name]
  let mut isFirst := true
  for name in Text.sorted plain do
    write (name ++ "\n")
    isFirst := false
  for name in Text.sorted directories do
    if 1 < names.length then write ((if isFirst then [] else "\n" : Text) ++ name ++ ":\n")
    isFirst := false
    for entry in namesIn fs name (o.has 'a' || o.has 'A') do
      write (entry ++ "\n")
  return status) 2

def setTree (tree : FileTree) : Action PUnit := Action.onMachine ({ · with tree })

def touch : Program := fun args => do
  let mut status := 0
  for name in args do
    let fs ← Action.files
    if (Kind.ofPath fs name).toOption.isNone then
      match (fs.write name [] false : Except Fault Files), fs.place name with
      | .ok fs, .ok p =>
        if fs.tree.find? p.dropLast = some .directory then setTree fs.tree
        else
          complain ("cannot touch " ++ always name ++ ": No such file or directory")
          status := 1
      | _, .error f =>
        complain ("cannot touch " ++ always name ++ ": " ++ reason f)
        status := 1
      | _, _ => status := 1
  return status

/-- Makes a directory in one that is there. -/
def madeDirectory (fs : Files) (name : Text) : Except Fault Unit × Files :=
  let made : Except Fault Files := do
    let p ← fs.locate name
    if fs.tree.find? p.dropLast ≠ some .directory then throw (.file (.missing name))
    fs.makeDirectory name
  (made.map fun _ => (), made.toOption.getD fs)

def mkdir : Program := fun args => withOptions "pv" "m" args (fun o => do
  if o.operands.isEmpty then return ← misuse "missing operand" 1
  let mut status := 0
  for name in o.operands do
    let fs ← Action.files
    let (made, fs) := if o.has 'p' then fs.ensureWay (Files.way name) else madeDirectory fs name
    setTree fs.tree
    match made with
    | .ok () => pure ()
    | .error (.file f) =>
      complain ("cannot create directory " ++ Quoting.inMessage name ++ ": " ++ reason f)
      status := 1
    | .error _ => status := 1
  return status) 1

def rm : Program := fun args => withOptions "frRidv" [] args (fun o => do
  if o.operands.isEmpty && !o.has 'f' then return ← misuse "missing operand" 1
  let mut status := 0
  for name in o.operands do
    let fs ← Action.files
    match Kind.ofPath fs name, fs.place name with
    | .ok .directory, .ok p =>
      if o.has 'r' || o.has 'R' then setTree ⟨fs.tree.entries.filter fun e => !p.isPrefixOf e.1⟩
      else
        complain ("cannot remove " ++ always name ++ ": Is a directory")
        status := 1
    | .ok _, .ok p => setTree ⟨fs.tree.entries.filter (·.1 ≠ p)⟩
    | .error f, _ | _, .error f =>
      if !o.has 'f' then
        complain ("cannot remove " ++ always name ++ ": " ++ reason f)
        status := 1
  return status) 1

end Program

end CallTrace.Shell
