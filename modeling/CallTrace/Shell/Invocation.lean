import CallTrace.Shell.Builtin.Option

namespace CallTrace.Shell.Invocation

open Shell.Action

/-- The variables that every shell starts with. -/
def ownVariables (s : State) : List (Text × Variable) :=
  let own (name value : Text) : Text × Variable := (name, { value := some value })
  [own "IFS" " \t\n", own "OPTIND" "1", own "PPID" (Text.ofNat s.parent), own "PS1" "# ", own "PS2" "> ",
    own "PS4" "+ "]

/-- The variables of a new shell: its own and those that a program finds. -/
def inherited (s : State) : List (Text × Variable) :=
  let own := ownVariables s
  let found := s.bindings.filterMap fun (name, v) =>
    if v.isExported && v.value.isSome && (own.lookup name).isNone then some (name, { v with isFixed := false })
    else none
  own ++ found

/-- What a shell that is started is to do. -/
inductive Task where
  /-- A script among the arguments. -/
  | script (t : Text)
  | file (name : Text)
  | input
  /-- It was started in a wrong way. -/
  | wrong (fault : Text)

/-- Goes through the arguments that a shell is started with: its options, what it is to do, its name and the
arguments of the script. -/
def taskOf (isCommand isInput : Bool) (options : Text) : List Text → Text × Task × Option Text × List Text
  | [] => (options, if isCommand then .wrong "-c requires an argument" else .input, none, [])
  | arg :: args =>
    let isOn := arg.startsWith "-"
    if (isOn || arg.startsWith "+") && 1 < arg.length && arg ≠ "--" then
      let letters := arg.drop 1
      let known := letters.filter fun c => c ≠ .char 'c' && c ≠ .char 'o' && c ≠ .char 'l'
      match known.find? fun c => !Builtin.optionLetters.contains c with
      | some c => (options, .wrong ("Illegal option " ++ [if isOn then .char '-' else .char '+', c]), none, [])
      | none =>
        let options := if isOn then known ++ options else options.filter (!known.contains ·)
        let isCommand := isCommand || (isOn && letters.contains 'c')
        let isInput := isInput || (isOn && letters.contains 's')
        if letters.contains 'o' then
          match args with
          | [] => (options, .input, none, [])
          | name :: args =>
            match Builtin.shellOptions.lookup name with
            | some (some c) => taskOf isCommand isInput (if isOn then c :: options else options) args
            | some none => taskOf isCommand isInput options args
            | none =>
              let mark : Text := if isOn then "Illegal option -o " else "Illegal option +o "
              (options, .wrong (mark ++ name), none, [])
        else taskOf isCommand isInput options args
    else
      let rest := if arg = "--" || arg = "-" then args else arg :: args
      match isCommand, rest with
      | true, [] => (options, .wrong "-c requires an argument", none, [])
      | true, [t] => (options, .script t, none, [])
      | true, t :: name :: arguments => (options, .script t, some name, arguments)
      | false, [] => (options, .input, none, [])
      | false, name :: arguments =>
        if isInput then (options, .input, none, name :: arguments)
        else (options, .file name, some name, arguments)

end CallTrace.Shell.Invocation
