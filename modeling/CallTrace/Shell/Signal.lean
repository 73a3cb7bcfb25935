import CallTrace.Shell.Numeral

namespace CallTrace.Shell

abbrev Signal := Nat

namespace Signal

/-- The names of signals from the first one on. -/
def names : List Text := Text.split ' '
  ("HUP INT QUIT ILL TRAP ABRT BUS FPE KILL USR1 SEGV USR2 PIPE ALRM TERM 16 CHLD CONT STOP TSTP TTIN " ++
    "TTOU URG XCPU XFSZ VTALRM PROF WINCH IO PWR SYS" : String)

/-- The first signal that has a number only. -/
def firstNumbered : Signal := 34

/-- There are fewer signals than this. -/
def bound : Nat := 65

def name (s : Signal) : Text :=
  if s = 0 then "EXIT"
  else match names[s - 1]? with
    | some t => t
    | none =>
      if s = firstNumbered then "RTMIN"
      else if s = bound - 1 then "RTMAX"
      else if firstNumbered < s && s < 50 then "RTMIN+" ++ Text.ofNat (s - firstNumbered)
      else if 50 ≤ s then "RTMAX-" ++ Text.ofNat (bound - 1 - s)
      else Text.ofNat s

def capital (t : Text) : Text :=
  t.map fun c => if c.isWithin 'a' 'z' then .ofNat (c.toNat - 32) else c

/-- The signal that a number or a name in letters of any size means. The signal zero stands for the end of a
shell. -/
def ofText? (t : Text) : Option Signal :=
  match if t.all CodePoint.isDigit then Numeral.count? t else none with
  | some n => if n < bound then some n else none
  | none => (List.range bound).find? fun s => name s = capital t

/-- Whether a process that does nothing about a signal goes on. -/
def isHarmless (s : Signal) : Bool := s = 0 || s = 17 || s = 18 || s = 23 || s = 28

/-- Whether a process that does nothing about a signal halts without an end. -/
def halts (s : Signal) : Bool := 19 ≤ s && s ≤ 22

/-- Whether nothing can be done about a signal. -/
def isForced (s : Signal) : Bool := s = 9 || s = 19

def words : List (Signal × Text) := [
  (1, "Hangup"), (2, "Interrupt"), (3, "Quit"), (4, "Illegal instruction"), (5, "Trace/breakpoint trap"), (6, "Aborted"),
  (7, "Bus error"), (8, "Floating point exception"), (9, "Killed"), (10, "User defined signal 1"),
  (11, "Segmentation fault"), (12, "User defined signal 2"), (13, "Broken pipe"), (14, "Alarm clock"),
  (15, "Terminated"), (16, "Stack fault"), (24, "CPU time limit exceeded"), (25, "File size limit exceeded"),
  (26, "Virtual timer expired"), (27, "Profiling timer expired"), (29, "I/O possible"), (30, "Power failure"),
  (31, "Bad system call")]

def title (s : Signal) : Text :=
  match words.lookup s with
  | some t => t
  | none => "Real-time signal " ++ Text.ofNat (s - firstNumbered)

/-- What a shell tells about a process that a signal ended; about some it is silent. -/
def told? (s : Signal) : Option Text :=
  if s = 2 || s = 13 || ((words.lookup s).isNone && s < firstNumbered) then none else some (title s)

end Signal

end CallTrace.Shell
