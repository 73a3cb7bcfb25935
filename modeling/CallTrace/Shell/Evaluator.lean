import CallTrace.Shell.Arithmetic
import CallTrace.Shell.Expansion
import CallTrace.Shell.Invocation
import CallTrace.Shell.Lookup
import CallTrace.Shell.Parser
import CallTrace.Shell.Program.Table

namespace CallTrace.Shell.Evaluator

open Shell.Action Expansion Invocation Lookup

/-- Where a command stands. -/
structure Mode where
  /-- Nothing follows, so a program takes the place of the shell. -/
  isLast : Bool := false
  /-- Its failure is looked at, and ends nothing. -/
  isTested : Bool := false

/-- How deep calls go at most. -/
def deepest : Nat := 1000

def restoreStreams (streams : List (Nat × Stream)) : Action PUnit := modify ({ · with streams })

/-- Ends the shell after a failure, if it is to end then. -/
def check (mode : Mode) : Action PUnit := do
  let s ← get
  if s.status ≠ 0 && !mode.isTested && (← hasOption 'e') then throw (.exit s.status)

/-- What a signal trap leaves when scripts start in a process of their own: what is ignored stays so. -/
def ignoredOnly (traps : List (Signal × Text)) : List (Signal × Text) := traps.filter fun t => t.2.isEmpty

/-- The process as which something has been run. -/
def finished (s t : State) (number start : Nat) (ending : Option Ending) (held : List Nat)
    (ignored : List Signal) : Process where
  number := number
  parent := s.process
  start := start
  finish := ending.map fun _ => t.machine.clock
  ending := ending.getD (.exit 0)
  sinks := held
  ignored := ignored

/-- How the commands of a process ended; `none` if they never do. -/
def endingOf : Halt → Option Ending
  | .exit n => some (.exit (n % 256))
  | .killed s => some (.killed s)
  | .failed => some (.exit 2)
  | .stuck => none
  | .leave .. | .back => some (.exit 0)

/-- How a part of a loop comes out. -/
inductive Round where
  | finished
  /-- The loop goes on with its next round. -/
  | skipped
  | left

/-- The sinks are held that the streams lead to by now. -/
def holdStreams : Action PUnit := modify fun s => { s with held := heldSinks s }

/-- Runs a part of a loop. -/
def round (body : Action PUnit) : Action Round := do
  let loops := (← get).loops
  try
    body
    return .finished
  catch halt =>
    match halt with
    | .leave goesOn n =>
      if 1 < n then
        modify fun s => { s with loops := loops - 1 }
        throw (.leave goesOn (n - 1))
      return if goesOn then .skipped else .left
    | halt => throw halt

/-- Takes over how a process ended that was waited for. -/
def conclude (replaces : Bool) (ending : Option Ending) : Action PUnit := do
  if replaces then modify fun s => { s with traps := s.traps.filter (·.1 ≠ 0) }
  modify fun s => { s with waited := s.machine.clock }
  match ending with
  | none => throw .stuck
  | some (.exit status) =>
    setStatus status
    if replaces then throw (.exit status)
  | some (.killed signal) =>
    if replaces then throw (.killed signal)
    Builtin.tellOf (.killed signal)
    setStatus (128 + signal)

/-- Whether a command that nothing follows may take the place of the shell. -/
def mayReplace (mode : Mode) : Action Bool := return mode.isLast && (← get).traps.isEmpty

mutual

/-- The pieces that a word comes to. -/
def pieces (fuel : Nat) (splits : Bool) (w : Word) : Action (List Piece) :=
  match fuel with
  | 0 => throw .stuck
  | fuel + 1 => do
    match w with
    | [] => return []
    | part :: parts =>
      let front ← partPieces fuel splits part
      return front ++ (← pieces fuel splits parts)

def partPieces (fuel : Nat) (splits : Bool) (part : Part) : Action (List Piece) :=
  match fuel with
  | 0 => throw .stuck
  | fuel + 1 => do
    match part with
    | .text isQuoted t => return [.text isQuoted t]
    | .output isQuoted script => return [valuePiece isQuoted (withoutLineEnds (← capture fuel script))]
    | .sum isQuoted expression =>
      let t ← plain fuel expression
      let s ← get
      let value (name : Text) : Text := ((s.bindings.lookup name).bind Variable.value).getD []
      match Arithmetic.evaluate value t with
      | .error fault => abort fault
      | .ok (n, assigned) =>
        for (name, m) in assigned do
          assign name (Text.ofInt m.toInt)
        return [valuePiece isQuoted (Text.ofInt n.toInt)]
    | .parameter isQuoted name use =>
      let value? ← parameter? name
      let mayBeUnset := !(← hasOption 'u')
      match use with
      | .bad => abort "Bad substitution"
      | .plain =>
        match value? with
        | some t => parameterPieces isQuoted splits name t
        | none =>
          if !mayBeUnset then refuseUnset name
          return [valuePiece isQuoted []]
      | .size =>
        if value?.isNone && !mayBeUnset then refuseUnset name
        return [valuePiece isQuoted (Text.ofNat (value?.getD []).length)]
      | .cut side longest pattern =>
        if value?.isNone && !mayBeUnset then refuseUnset name
        let p := (← pieces fuel false pattern).flatMap Piece.pattern
        return [valuePiece isQuoted (Pattern.cut p side longest (value?.getD []))]
      | .instead how whereEmpty word =>
        let isThere := match value? with
          | some t => !(whereEmpty && t.isEmpty)
          | none => false
        match how, isThere with
        | .replace, false => return [valuePiece isQuoted []]
        | .use, false | .replace, true =>
          let ps ← pieces fuel splits (← withHome word)
          return if isQuoted then ps else ps.map Piece.asValue
        | .assign, false =>
          let t ← plain fuel (← withHome word)
          if !isName name then abort (name ++ ": bad variable name")
          assign name t
          return [valuePiece isQuoted t]
        | .fail, false =>
          let t ← plain fuel word
          if !word.isEmpty then abort (name ++ ": " ++ t)
          abort (name ++ (if whereEmpty then ": parameter not set or null" else ": parameter not set"))
        | _, true => parameterPieces isQuoted splits name (value?.getD [])

/-- A word as one text, which is not cut. -/
def plain (fuel : Nat) (w : Word) : Action Text :=
  match fuel with
  | 0 => throw .stuck
  | fuel + 1 => do
    let ps ← pieces fuel false (← withHome w)
    return ps.flatMap Piece.plainText

/-- The fields that words come to. -/
def fields (fuel : Nat) (ws : List Word) : Action (List Text) :=
  match fuel with
  | 0 => throw .stuck
  | fuel + 1 => do
    match ws with
    | [] => return []
    | w :: ws =>
      let ps ← pieces fuel true (← withHome w)
      let separators := (← value? "IFS").getD " \t\n"
      let found := Field.ofPieces separators ps
      let fs ← files
      let front ← if ← hasOption 'f' then pure (found.map Pattern.text)
        else pure (found.flatMap (Field.expanded fs))
      return front ++ (← fields fuel ws)

/-- The fields of a command that assigns values: what assigns one is not cut. -/
def assigningFields (fuel : Nat) (ws : List Word) : Action (List Text) :=
  match fuel with
  | 0 => throw .stuck
  | fuel + 1 => do
    match ws with
    | [] => return []
    | w :: ws =>
      let front ← match Parser.assignment? w with
        | some (name, value) =>
          pure [name ++ "=" ++ (← pieces fuel false (← withHomes true value)).flatMap Piece.plainText]
        | none => fields fuel [w]
      return front ++ (← assigningFields fuel ws)

/-- What a script writes. -/
def capture (fuel : Nat) (c : Command) : Action Text :=
  match fuel with
  | 0 => throw .stuck
  | fuel + 1 => do
    let (sink, m) := (← get).machine.addSink
    modify fun s => { s with machine := m }
    let (ending, _) ← process fuel false
      (fun s => { s with streams := (1, .sink sink) :: s.streams.filter (·.1 ≠ 1) })
      (eval fuel { isLast := true } c)
    let m := (← get).machine
    match ending, m.doneAt sink m.clock with
    | some ending, some time =>
      waitUntil time
      modify fun s => { s with waited := s.machine.clock }
      Builtin.tellOf ending
      modify fun s => { s with captured := ending.status }
      let t := (← get).machine.written sink
      onMachine (·.dropSink sink)
      return t.filter (· ≠ .char '\x00')
    | _, _ => throw .stuck

/-- Runs something as a process of its own, or in place of this one, up to its end, of which it may have none.
It has also the sinks that are not done before. -/
def process (fuel : Nat) (replaces : Bool) (enter : State → State) (body : Action PUnit) :
    Action (Option Ending × List Nat) :=
  match fuel with
  | 0 => throw .stuck
  | fuel + 1 => do
    let s ← get
    let number := if replaces then s.process else s.machine.nextProcess
    set (enter { s with
      process := number, parent := if replaces then s.parent else s.process
      traps := ignoredOnly s.traps, loops := 0, jobs := if replaces then s.jobs else []
      machine := { s.machine with nextProcess := max (number + 1) s.machine.nextProcess } })
    modify fun s => { s with held := heldSinks s }
    let ending ← wholly fuel body
    let t ← get
    set { s with machine := t.machine }
    if !replaces && s.isJob && ending.isSome then
      let p := finished s t number s.machine.clock ending t.held (ignoredSignals s)
      onMachine fun m => { m with processes := p :: m.processes }
    return (ending, t.held)

/-- Runs the commands of a shell and what it does at its end. -/
def wholly (fuel : Nat) (body : Action PUnit) : Action (Option Ending) :=
  match fuel with
  | 0 => throw .stuck
  | fuel + 1 => do
    let ended (body : Action PUnit) : Action (Option Ending) := do
      try
        body
        return some (.exit ((← get).status % 256))
      catch halt =>
        match halt with
        | .back => return some (.exit ((← get).status % 256))
        | halt => return endingOf halt
    match ← ended body with
    | some (.exit status) =>
      match (← get).traps.lookup 0 with
      | none | some [] => return some (.exit status)
      | some action =>
        modify fun s => { s with traps := s.traps.filter (·.1 ≠ 0), status, builtin := none }
        let last ← ended do
          script fuel {} action
          throw (.exit status)
        return last
    | ending => return ending

/-- Does what is to be done about signals that have come. -/
def settle (fuel : Nat) : Action PUnit :=
  match fuel with
  | 0 => throw .stuck
  | fuel + 1 => do
    let s ← get
    let (mine, others) := s.machine.signals.partition fun (number, _, time) =>
      number = s.process && time ≤ s.machine.clock
    if !mine.isEmpty then
      onMachine fun m => { m with signals := others }
      for (_, signal, time) in mine do
        if (s.traps.lookup signal).isNone && !Signal.isHarmless signal then
          onMachine fun m => { m with clock := time }
        Builtin.receive signal
    match (← get).raised with
    | [] => return
    | signal :: rest =>
      modify fun s => { s with raised := rest }
      let status := (← get).status
      match (← get).traps.lookup signal with
      | some action =>
        script fuel {} action
        setStatus status
      | none => pure ⟨⟩
      settle fuel

/-- What redirections name: a file, a stream that is copied, or nothing. -/
def targets (fuel : Nat) (rs : List Redirection) : Action (List (Redirection × Text)) :=
  match fuel with
  | 0 => throw .stuck
  | fuel + 1 => do
    match rs with
    | [] => return []
    | r :: rs =>
      let t ← match r with
        | .file _ _ name => plain fuel name
        | .copy _ source =>
          let t ← plain fuel source
          match t with
          | [c] => if c ≠ '-' && !c.isDigit then abort "Syntax error: Bad fd number"
          | _ => abort "Syntax error: Bad fd number"
          pure t
        | .document .. => pure []
      return (r, t) :: (← targets fuel rs)

/-- Redirects the streams; false if that failed, which has been told. What all of them name is found before the
first is done. -/
def redirect (fuel : Nat) (rs : List Redirection) : Action Bool :=
  match fuel with
  | 0 => throw .stuck
  | fuel + 1 => do
    redirectTo fuel (← targets fuel rs)

def redirectTo (fuel : Nat) (rs : List (Redirection × Text)) : Action Bool :=
  match fuel with
  | 0 => throw .stuck
  | fuel + 1 => do
    match rs with
    | [] => return true
    | (r, t) :: rs =>
      let isDone ← match r with
        | .file stream opening _ =>
          let opened ← match opening with
            | .read => openToRead t
            | .both =>
              if (← kind? t).isSome then openToRead t else openToWrite t true true
            | .append => openToWrite t true true
            | .write => openToWrite t false (!(← hasOption 'C'))
            | .overwrite => openToWrite t false true
          match opened with
          | .ok target =>
            setStream stream (some target)
            pure true
          | .error fault =>
            complain fault
            pure false
        | .copy stream _ =>
          match t.head?.map fun c => (c, c.distance '0') with
          | none => pure false
          | some (c, source) =>
            if c = '-' then
              setStream stream none
              pure true
            else
              match ← stream? source with
              | some target =>
                setStream stream (some target)
                pure true
              | none =>
                complain (t ++ ": Bad file descriptor")
                pure false
        | .document stream number =>
          try
            let body := ((← get).documents.lookup number).getD []
            let t := (← pieces fuel false body).flatMap Piece.plainText
            setStream stream (some (← newSource { text := t }))
            pure true
          catch halt =>
            match halt with
            | .failed => pure false
            | halt => throw halt
      if isDone then redirectTo fuel rs else return false

/-- Runs a script, one line after the other. -/
def script (fuel : Nat) (mode : Mode) (t : Text) : Action PUnit :=
  match fuel with
  | 0 => throw .stuck
  | fuel + 1 => do
    let line := (← get).line
    let s ← get
    scriptLines fuel mode {
      rest := t, aliases := s.aliases, documents := s.documents, nextDocument := s.documents.length }
    modify ({ · with line })

def scriptLines (fuel : Nat) (mode : Mode) (source : Source) : Action PUnit :=
  match fuel with
  | 0 => throw .stuck
  | fuel + 1 => do
    match EStateM.run Parser.next? source with
    | .error fault source =>
      modify fun s => { s with line := source.line }
      abort ("Syntax error: " ++ fault)
    | .ok none _ => return
    | .ok (some (c, isLast)) source =>
      modify ({ · with documents := source.documents })
      eval fuel { mode with isLast := mode.isLast && isLast } c
      let s ← get
      scriptLines fuel mode { source with
        aliases := s.aliases, replaced := [], documents := s.documents, nextDocument := s.documents.length }

def eval (fuel : Nat) (mode : Mode) (c : Command) : Action PUnit :=
  match fuel with
  | 0 => throw .stuck
  | fuel + 1 => do
    if ← hasOption 'n' then return
    let inner : Mode := { mode with isLast := false }
    let tested : Mode := { isTested := true }
    match c with
    | .nothing => return
    | .simple line assignments words redirections =>
      modify fun s => { s with line }
      simple fuel mode assignments words redirections
      settle fuel
      check mode
    | .redirected line c redirections =>
      modify fun s => { s with line }
      let streams := (← get).streams
      try
        if ← redirect fuel redirections then eval fuel inner c
        else
          setStatus 2
          check mode
      finally restoreStreams streams
    | .subshell line c redirections =>
      modify fun s => { s with line }
      subshell fuel mode c redirections
      settle fuel
      check mode
    | .pipeline cs =>
      pipeline fuel cs
      settle fuel
      check mode
    | .background c =>
      background fuel c
    | .sequence c d =>
      eval fuel inner c
      eval fuel mode d
    | .both c d =>
      eval fuel tested c
      if (← get).status = 0 then eval fuel mode d
    | .either c d =>
      eval fuel tested c
      if (← get).status ≠ 0 then eval fuel mode d
    | .negated c =>
      eval fuel tested c
      setStatus (if (← get).status = 0 then 1 else 0)
    | .choice test yes no =>
      eval fuel tested test
      if (← get).status = 0 then eval fuel mode yes
      else
        match no with
        | some no => eval fuel mode no
        | none => setStatus 0
    | .loop untilTrue test body =>
      let loops := (← get).loops
      modify fun s => { s with loops := loops + 1 }
      loop fuel inner untilTrue test body 0
      modify fun s => { s with loops }
    | .forEach line name words body =>
      modify fun s => { s with line }
      let values ← match words with
        | some ws => fields fuel ws
        | none => pure (← get).arguments
      let loops := (← get).loops
      modify fun s => { s with loops := loops + 1 }
      if values.isEmpty then setStatus 0
      forEach fuel inner name values body
      modify fun s => { s with loops }
    | .cases line word branches =>
      modify fun s => { s with line }
      let t ← plain fuel word
      cases fuel mode t branches
    | .function _ name body =>
      modify fun s => { s with functions := (name, body) :: s.functions.filter (·.1 ≠ name) }
      setStatus 0

def loop (fuel : Nat) (mode : Mode) (untilTrue : Bool) (test body : Command) (status : Nat) : Action PUnit :=
  match fuel with
  | 0 => throw .stuck
  | fuel + 1 => do
    spend 1
    match ← round (eval fuel { isTested := true } test) with
    | .left => return
    | .skipped => loop fuel mode untilTrue test body 0
    | .finished =>
      if ((← get).status = 0) = !untilTrue then
        match ← round (eval fuel mode body) with
        | .left => return
        | _ =>
          settle fuel
          loop fuel mode untilTrue test body (← get).status
      else setStatus status

def forEach (fuel : Nat) (mode : Mode) (name : Text) (values : List Text) (body : Command) : Action PUnit :=
  match fuel with
  | 0 => throw .stuck
  | fuel + 1 => do
    match values with
    | [] => return
    | value :: values =>
      assign name value
      match ← round (eval fuel mode body) with
      | .left => return
      | _ => forEach fuel mode name values body

def cases (fuel : Nat) (mode : Mode) (t : Text) (branches : List (List Word × Command)) : Action PUnit :=
  match fuel with
  | 0 => throw .stuck
  | fuel + 1 => do
    match branches with
    | [] => setStatus 0
    | ([], _) :: branches => cases fuel mode t branches
    | (w :: ws, c) :: branches =>
      let p := (← pieces fuel false (← withHome w)).flatMap Piece.pattern
      if !Pattern.accepts p t then cases fuel mode t ((ws, c) :: branches)
      else
        match c with
        | .nothing => setStatus 0
        | c => eval fuel mode c

def subshell (fuel : Nat) (mode : Mode) (c : Command) (redirections : List Redirection) : Action PUnit :=
  match fuel with
  | 0 => throw .stuck
  | fuel + 1 => do
    let replaces ← mayReplace mode
    let streams := (← get).streams
    try
      if ← redirect fuel redirections then
        let (ending, held) ← process fuel replaces id (eval fuel { mode with isLast := true } c)
        if replaces then modify ({ · with held })
        conclude replaces ending
      else setStatus 2
    finally restoreStreams streams

def pipeline (fuel : Nat) (cs : List Command) : Action PUnit :=
  match fuel with
  | 0 => throw .stuck
  | fuel + 1 => do
    let start := (← get).machine.clock
    stages fuel start none cs

/-- The stages of a pipeline from one that reads from some source. -/
def stages (fuel start : Nat) (input : Option Stream) (cs : List Command) : Action PUnit :=
  match fuel with
  | 0 => throw .stuck
  | fuel + 1 => do
    let latest := (← get).machine.clock
    onMachine ({ · with clock := start })
    let reading (s : State) : State := match input with
      | some stream => { s with streams := (0, stream) :: s.streams.filter (·.1 ≠ 0) }
      | none => s
    match cs with
    | [] => return
    | [c] =>
      let (ending, _) ← process fuel false reading (eval fuel { isLast := true } c)
      waitUntil latest
      conclude false ending
    | c :: cs =>
      let (sink, m) := (← get).machine.addSink
      modify fun s => { s with machine := m }
      let (ending, _) ← process fuel false
        (fun s => { reading s with streams := (1, .sink sink) :: (reading s).streams.filter (·.1 ≠ 1) })
        (eval fuel { isLast := true } c)
      let m := (← get).machine
      let text := m.written sink
      let tail : Tail := match ending, m.tails.lookup sink, m.doneAt sink m.clock with
        | some _, _, some _ => .ending
        | _, some tail, _ => tail
        | _, none, _ => .silence
      let ready := (m.doneAt sink m.clock).getD m.clock
      match ending with
      | some ending => Builtin.tellOf ending
      | none => if text.isEmpty && (m.tails.lookup sink).isNone then throw .stuck
      let stream ← newSource { text, tail, ready }
      onMachine (·.dropSink sink)
      waitUntil latest
      stages fuel start (some stream) cs

def background (fuel : Nat) (c : Command) : Action PUnit :=
  match fuel with
  | 0 => throw .stuck
  | fuel + 1 => do
    let s ← get
    let start := s.machine.clock
    let number := s.machine.nextProcess
    onMachine fun m => { m with clock := m.clock + 1000 }
    let enter (s : State) : State := { s with
      streams := (0, .nothing) :: s.streams.filter (·.1 ≠ 0)
      ignored := 2 :: 3 :: s.ignored
      isJob := true }
    let (ending, held) ← process fuel false enter do
      match c with
      | .redirected _ c rs =>
        if ← redirect fuel rs then
          holdStreams
          eval fuel { isLast := true } c
        else setStatus 2
      | c => eval fuel { isLast := true } c
    let p := finished s (← get) number start ending held (2 :: 3 :: ignoredSignals s)
    onMachine fun m => { m with clock := start + 10, processes := p :: m.processes }
    modify fun s => { Job.add number s with last := some number, status := 0 }

def simple (fuel : Nat) (mode : Mode) (assignments : List (Text × Word)) (words : List Word)
    (redirections : List Redirection) : Action PUnit :=
  match fuel with
  | 0 => throw .stuck
  | fuel + 1 => do
    modify fun s => { s with captured := 0 }
    let isAssigning := words.head?.any fun w =>
      (Word.literal? w).any fun t => t.isOneOf ["export", "readonly", "local"]
    let args ← if isAssigning then assigningFields fuel words else fields fuel words
    let streams := (← get).streams
    let isKept := args.head? = some (Text.ofString "exec")
    try
      if !(← redirect fuel redirections) then
        setStatus 2
        if args.head?.any (Text.isOneOf · Builtin.specials) then throw .failed
        return
      let bindings := (← get).bindings
      let values ← assigned fuel assignments
      if ← hasOption 'x' then
        let marks ← match (← value? "PS4").bind Parser.document with
          | some w => pure ((← pieces fuel false w).flatMap Piece.plainText)
          | none => pure []
        let inner := (← get).streams
        restoreStreams streams
        tell (marks ++ Text.join " " (values.map (fun (name, t) => name ++ "=" ++ t) ++ args) ++ "\n")
        restoreStreams inner
      match args with
      | [] =>
        for (name, t) in values do
          assign name t
        setStatus (← get).captured
      | name :: args =>
        for (name, t) in values do
          assign name t
          modify fun s => { s with bindings := s.bindings.map fun (other, v) =>
            (other, if other = name then { v with isExported := true } else v) }
        invoke fuel mode true name args
        if !values.isEmpty && !name.isOneOf Builtin.specials then
          for (name, _) in values do
            modify fun s => { s with bindings := match bindings.lookup name with
              | some v => putVariable name v s.bindings
              | none => s.bindings.filter (·.1 ≠ name) }
    finally
      if !isKept then restoreStreams streams

/-- The values that are assigned in front of a command. -/
def assigned (fuel : Nat) (assignments : List (Text × Word)) : Action (List (Text × Text)) :=
  match fuel with
  | 0 => throw .stuck
  | fuel + 1 => do
    match assignments with
    | [] => return []
    | (name, w) :: more =>
      let t := (← pieces fuel false (← withHomes true w)).flatMap Piece.plainText
      if more.isEmpty then return [(name, t)]
      let before := (← get).bindings
      setVariable name { (← heldVariable name).getD {} with value := some t }
      let rest ← assigned fuel more
      modify fun s => { s with bindings := before }
      return (name, t) :: rest

/-- Runs what a name stands for. -/
def invoke (fuel : Nat) (mode : Mode) (functionsToo : Bool) (name : Text) (args : List Text) : Action PUnit :=
  match fuel with
  | 0 => throw .stuck
  | fuel + 1 => do
    let s ← get
    let isSpecial := name.isOneOf Builtin.specials
    match if functionsToo && !isSpecial then Text.lookup name s.functions else none with
    | some body => call fuel mode body args
    | none =>
      if Builtin.isBuiltin name then
        spend 1
        modify fun s => { s with builtin := some name }
        try
          own fuel mode name args
        catch halt =>
          match halt with
          | .failed =>
            if isSpecial && functionsToo then throw .failed
            setStatus 2
          | halt => throw halt
        finally
          modify fun t => { t with builtin := s.builtin }
      else external fuel (← mayReplace mode) name args

/-- Runs a function. -/
def call (fuel : Nat) (mode : Mode) (body : Command) (args : List Text) : Action PUnit :=
  match fuel with
  | 0 => throw .stuck
  | fuel + 1 => do
    let s ← get
    if deepest ≤ s.calls then
      abort ("Maximum function recursion depth (" ++ Text.ofNat deepest ++ ") reached")
    set { s with
      arguments := args, loops := 0, calls := s.calls + 1, saved := [] :: s.saved
      savedOptions := none :: s.savedOptions }
    try
      eval fuel { isTested := mode.isTested } body
    catch halt =>
      match halt with
      | .back => pure ⟨⟩
      | halt => throw halt
    modify fun t => { t with
      arguments := s.arguments, loops := s.loops, calls := s.calls, line := s.line
      saved := s.saved
      bindings := (t.saved.headD []).foldl (fun vs (name, v) =>
        if v.value.isNone && !v.isExported && !v.isFixed then vs.filter (·.1 ≠ name)
        else putVariable name v vs) t.bindings
      options := ((t.savedOptions.headD none).getD t.options)
      savedOptions := s.savedOptions }

/-- Runs a command of the shell's own. -/
def own (fuel : Nat) (mode : Mode) (name : Text) (args : List Text) : Action PUnit :=
  match fuel with
  | 0 => throw .stuck
  | fuel + 1 => do
    if name = "eval" then
      let t := Text.join " " args
      if args.isEmpty then setStatus 0
      else
        let before := (← get).status
        setStatus 0
        if t.all Numeral.isSpace then return
        setStatus before
        script fuel { isTested := mode.isTested } t
    else if name = "." then
      match args with
      | [] => setStatus 0
      | file :: _ =>
        let fs ← files
        match (fs.place file).toOption.bind fs.tree.find? with
        | some (.file t _) =>
          modify fun s => { s with builtin := some file }
          setStatus 0
          try
            script fuel {} t
          catch halt =>
            match halt with
            | .back => pure ⟨⟩
            | halt => throw halt
        | _ =>
          if file = "/dev/null" then setStatus 0
          else if file.contains (CodePoint.char '/') then abort ("cannot open " ++ file ++ ": No such file")
          else abort (file ++ ": not found")
    else if name = "exec" then
      match args with
      | [] => setStatus 0
      | program :: args => external fuel true program args
    else if name = "command" then
      let (given, args) ← Builtin.options "pvV" [] args
      match args with
      | [] => setStatus 0
      | name :: args =>
        if given.any (·.1 = .char 'v') then
          let (t, status) ← describeBriefly name
          let _ ← Builtin.write t
          setStatus status
        else if given.any (·.1 = .char 'V') then
          let (t, status) ← describe name
          let _ ← Builtin.write t
          setStatus status
        else
          modify fun s => { s with builtin := none }
          invoke fuel mode false name args
    else if name = "hash" then
      let (_, args) ← Builtin.options "rv" [] args
      let mut status := 0
      for arg in args do
        let (_, found) ← describe arg
        if found ≠ 0 then
          complain (arg ++ ": not found")
          status := 1
      setStatus status
    else if name = "type" then
      let mut status := 0
      for arg in args do
        let (t, found) ← describe arg
        let _ ← Builtin.write t
        status := max status found
      setStatus status
    else
      match Text.lookup name Builtin.all with
      | some run => setStatus (← run args)
      | none => setStatus 0

/-- Runs a program, which takes the place of the shell perhaps. -/
def external (fuel : Nat) (replaces : Bool) (name : Text) (args : List Text) : Action PUnit :=
  match fuel with
  | 0 => throw .stuck
  | fuel + 1 => do
    let refuse (status : Nat) (why : Text) : Action PUnit := do
      complain (name ++ ": " ++ why)
      setStatus status
      if (← get).builtin = some (Text.ofString "exec") then throw (.exit status)
    if name.isEmpty then return ← refuse 127 "Permission denied"
    match ← programPath? name with
    | none => refuse 127 "not found"
    | some path =>
      let fs ← files
      match Kind.ofPath fs path with
      | .error (.tooLong _) => refuse 126 "File name too long"
      | .error _ => refuse 127 "not found"
      | .ok .program =>
        let s ← get
        let start := s.machine.clock
        let number := s.machine.nextProcess
        let (ending, held) ← process fuel replaces id do
          spend 1000
          started fuel name (Path.basename path) args
        let t ← get
        if !replaces && start + 10000 ≤ t.machine.clock && (ending.isNone || !s.isJob) then
          let p := finished s t number start ending held (ignoredSignals s)
          onMachine fun m => { m with processes := p :: m.processes }
        if replaces then modify ({ · with held })
        conclude replaces ending
      | .ok _ => refuse 126 "Permission denied"

/-- What a program does once it is started by some name. -/
def started (fuel : Nat) (name program : Text) (args : List Text) : Action PUnit :=
  match fuel with
  | 0 => throw .stuck
  | fuel + 1 => do
    modify fun s => { s with name }
    if program.isOneOf Kind.shells then newShell fuel name args
    else if program = "env" then
      let assigns := args.takeWhile fun arg => arg.contains (CodePoint.char '=')
      match args.drop assigns.length with
      | [] =>
        Program.write (← Program.environment)
        setStatus 0
      | program :: args =>
        for arg in assigns do
          let (name, value?) := Builtin.assignment arg
          setVariable name { value := value?, isExported := true }
        match ← programPath? program with
        | some path =>
          if (← kind? path) = some .program then started fuel program (Path.basename path) args
          else
            Program.complain (Quoting.inMessage program ++ ": No such file or directory")
            setStatus 127
        | none =>
          Program.complain (Quoting.inMessage program ++ ": No such file or directory")
          setStatus 127
    else setStatus (← Program.run program args)

/-- What a new shell does. -/
def newShell (fuel : Nat) (name : Text) (args : List Text) : Action PUnit :=
  match fuel with
  | 0 => throw .stuck
  | fuel + 1 => do
    let (options, task, name?, arguments) := taskOf false false [] args
    modify fun s => { s with
      main := s.process, name := name?.getD name, arguments, options := options.filter (· ≠ .char 'm')
      bindings := inherited s
      functions := [], status := 0, line := 0, builtin := none, last := none, jobs := [], calls := 0
      saved := [], savedOptions := [] }
    if options.contains 'm' then Builtin.setOption true 'm'
    match task with
    | .wrong fault => abort fault
    | .script t => script fuel {} t
    | .input =>
      match ← Program.contents "-" with
      | .ok t => script fuel {} t
      | .error _ => pure ⟨⟩
    | .file path =>
      modify fun s => { s with name }
      match ← openToRead path with
      | .error fault => abort fault
      | .ok (.source n) =>
        modify fun s => { s with name := path }
        match ((← get).machine.source n).all? with
        | some t => script fuel {} t
        | none => throw .stuck
      | .ok _ => modify fun s => { s with name := path }

end

end CallTrace.Shell.Evaluator
