import CallTrace.CommandLine.Value
import CallTrace.CommandLine.Word
import CallTrace.Number.Numeral
import CallTrace.StateTest
import CallTrace.Text.Lowered

namespace CallTrace

structure Arguments where
  files : List Text := []
  directory : FlagValue Text := .absent
  out : FlagValue Text := .absent
  packed : Bool := false
  fork : FlagValue Text := .absent
  pretty : Bool := false
  abbreviate : FlagValue Bool := .given true
  includes : FlagValue Text := .absent
  excludes : FlagValue Text := .absent
  incremental : Bool := false
  timeout : FlagValue Binary64 := .absent
  stackSize : FlagValue Int := .absent
  binary : FlagValue Text := .absent
  workers : FlagValue Int := .given 1
  verbose : Bool := false

/-- Why there is nothing to do for a command line. -/
inductive Stop where
  | help
  | misuse (m : Misuse)

namespace Arguments

def affirmative : List Text := ["true", "yes", "1"]

def negative : List Text := ["false", "no", "0"]

/-- Whether a word says yes or no, in letters of either case. -/
def truth (s : Text) : Except Fault Bool :=
  let word := Text.lowered s
  if word.isOneOf affirmative then .ok true
  else if word.isOneOf negative then .ok false
  else .error (.notTruthText s)

def truthOf (f : Flag) (s : Text) : Except Misuse Bool := (truth s).mapError fun _ => .badTruth f s

def integerOf (f : Flag) (s : Text) : Except Misuse Int :=
  (Number.integer? s).elim (.error (.badInteger f s)) .ok

def numberOf (f : Flag) (s : Text) : Except Misuse Binary64 :=
  (Number.real? s).elim (.error (.badNumber f s)) .ok

/-- A value as it is read; nothing is left of a separator. -/
def valueOf (read : Text → Except Misuse α) (s : Text) : Except Misuse (FlagValue α) :=
  if s = Word.separatorText then .ok .blank else .given <$> read s

/-- Takes in the value of a flag. -/
def give (a : Arguments) (f : Flag) (s : Text) : Except Misuse Arguments :=
  match f with
  | .directory => return { a with directory := ← valueOf .ok s }
  | .out => return { a with out := ← valueOf .ok s }
  | .fork => return { a with fork := ← valueOf .ok s }
  | .includes => return { a with includes := ← valueOf .ok s }
  | .excludes => return { a with excludes := ← valueOf .ok s }
  | .binary => return { a with binary := ← valueOf .ok s }
  | .abbreviate => return { a with abbreviate := ← valueOf (truthOf f) s }
  | .timeout => return { a with timeout := ← valueOf (numberOf f) s }
  | .stackSize => return { a with stackSize := ← valueOf (integerOf f) s }
  | .workers => return { a with workers := ← valueOf (integerOf f) s }
  | _ => .error (.needlessValue f s)

/-- Sets a flag that takes no value. -/
def raise (a : Arguments) : Flag → Except Stop Arguments
  | .help => .error .help
  | .packed => .ok { a with packed := true }
  | .pretty => .ok { a with pretty := true }
  | .incremental => .ok { a with incremental := true }
  | .verbose => .ok { a with verbose := true }
  | f => .error (.misuse (.noValue f))

/-- The flags of letters that stand together, the first one being read. Every letter has to be a flag. -/
def lettered : Flag → Text → Except Misuse (List Flag)
  | f, [] => .ok [f]
  | f, c :: cs =>
    match Flag.lettered? c with
    | none => .error (.needlessValue f (c :: cs))
    | some g => (f :: ·) <$> lettered g cs

/-- The flags that a flag without a value stands for, by what is written behind it. -/
def raised (f : Flag) (naming : Naming) : Option Text → Except Misuse (List Flag)
  | none => .ok [f]
  | some s => if naming = .letter && !s.isEmpty then lettered f s else .error (.needlessValue f s)

end Arguments

/-- Where the files are among the plain words that have been read. -/
inductive Gathering where
  | before
  | within
  | after

/-- A command line part way through. -/
structure Reading where
  arguments : Arguments
  gathering : Gathering
  left : List Text

namespace Reading

def begin : Reading := ⟨{}, .before, []⟩

/-- The files end where a flag follows them. -/
def closed (r : Reading) : Reading :=
  match r.gathering with
  | .within => { r with gathering := .after }
  | _ => r

def leave (r : Reading) (s : Text) : Reading := { r with left := r.left ++ [s] }

def plain (r : Reading) (s : Text) : Reading :=
  match r.gathering with
  | .after => r.leave s
  | _ => { r with arguments := { r.arguments with files := r.arguments.files ++ [s] }, gathering := .within }

def separator (r : Reading) : Reading :=
  match r.gathering with
  | .after => r.leave Word.separatorText
  | _ => { r with gathering := .within }

def give (r : Reading) (f : Flag) (s : Text) : Except Stop Reading := do
  return { r.closed with arguments := ← (r.arguments.give f s).mapError .misuse }

def raise (r : Reading) (f : Flag) : Except Stop Reading := do
  return { r.closed with arguments := ← r.arguments.raise f }

/-- Acts on flags that take no value, once all letters among them are known. -/
def raiseAll (r : Reading) (fs : Except Misuse (List Flag)) : Except Stop Reading := do
  (← fs.mapError .misuse).foldlM raise r

def words (r : Reading) : List Word → Except Stop Reading
  | [] => .ok r
  | .plain s :: ws => (r.plain s).words ws
  | .separator :: ws => r.separator.words ws
  | .unknown s :: ws => (r.closed.leave s).words ws
  | .flag f _ none :: .plain s :: ws => do
    if f.takesValue then (← r.give f s).words ws else ((← r.raise f).plain s).words ws
  | .flag f naming value :: ws => do
    match f.takesValue, value with
    | true, some s => (← r.give f s).words ws
    | _, _ => (← r.raiseAll (Arguments.raised f naming value)).words ws

end Reading

namespace Arguments

def ofWords (ws : List Word) : Except Stop Arguments := do
  let r ← Reading.begin.words ws
  if !r.left.isEmpty then throw (.misuse (.unrecognized r.left))
  return r.arguments

def ofList (words : List Text) : Except Stop Arguments := do
  ofWords (← (Word.readAll words).mapError .misuse)

/-- The filter that the asked for fork makes. -/
def filter (a : Arguments) : StateTest.Filter :=
  match a.fork with
  | .absent => StateTest.everyInstance
  | .blank => fun _ => false
  | .given fork => StateTest.ofFork fork

end Arguments

end CallTrace
