import CallTrace.Shell.Builtin.Basic
import CallTrace.Shell.Printf

namespace CallTrace.Shell

namespace Builtin

open Shell.Action

/-- The options of a shell, by name and letter. -/
def shellOptions : List (Text × Option CodePoint) := [
  ("errexit", some 'e'), ("noglob", some 'f'), ("ignoreeof", some 'I'), ("interactive", some 'i'),
  ("monitor", some 'm'), ("noexec", some 'n'), ("stdin", some 's'), ("xtrace", some 'x'),
  ("verbose", some 'v'), ("vi", some 'V'), ("emacs", some 'E'), ("noclobber", some 'C'),
  ("allexport", some 'a'), ("notify", some 'b'), ("nounset", some 'u'), ("privileged", some 'p'),
  ("nolog", none), ("debug", none)]

def optionLetters : Text := shellOptions.filterMap (·.2)

/-- The letters of the options that are set, as a script sees them. -/
def setLetters (options : Text) : Text := (optionLetters.filter options.contains).reverse

/-- Sets an option. Job control needs a terminal, and there is none. -/
def setOption (isOn : Bool) (c : CodePoint) : Action PUnit := do
  if isOn && c = 'm' then complain "can't access tty; job control turned off"
  else modify fun s =>
    let others := s.options.filter (· ≠ c)
    { s with options := if isOn then c :: others else others }

def setLetter (isOn : Bool) (c : CodePoint) : Action PUnit := do
  if !optionLetters.contains c then
    abort ("Illegal option " ++ [if isOn then .char '-' else .char '+', c])
  setOption isOn c

def setNamed (isOn : Bool) (name : Text) : Action PUnit := do
  match shellOptions.lookup name with
  | none => abort ((if isOn then "Illegal option -o " else "Illegal option +o " : Text) ++ name)
  | some (some c) => setOption isOn c
  | some none => pure ⟨⟩

def optionTable (isPlain : Bool) (options : Text) : Text :=
  let isOn (c? : Option CodePoint) : Bool := c?.any options.contains
  if isPlain then
    "Current option settings\n" ++ Text.concat (shellOptions.map fun (name, c?) =>
      Printf.inField true 16 name ++ (if isOn c? then "on\n" else "off\n" : Text))
  else Text.concat (shellOptions.map fun (name, c?) =>
    (if isOn c? then "set -o " else "set +o " : Text) ++ name ++ "\n")

/-- Goes through the options in front of arguments; the rest is left, if it takes the place of the arguments
of the script. -/
def setOptions : List Text → Action (Option (List Text))
  | [] => return none
  | arg :: args => do
    let isOn := arg.startsWith "-"
    if !isOn && !arg.startsWith "+" then return some (arg :: args)
    if arg = "-" then
      setOption false 'x'
      setOption false 'v'
      return if args.isEmpty then none else some args
    if arg = "--" then return some args
    let takesName := (arg.drop 1).contains 'o'
    for c in arg.drop 1 do
      if c ≠ .char 'o' then setLetter isOn c
    if !takesName then setOptions args
    else
      match args with
      | [] =>
        let _ ← write (optionTable isOn (← get).options)
        return none
      | name :: args =>
        setNamed isOn name
        setOptions args

end Builtin

end CallTrace.Shell
