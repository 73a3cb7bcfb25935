import CallTrace.CommandLine.Flag
import CallTrace.Fault

namespace CallTrace

inductive Misuse where
  /-- A word is short for several names. -/
  | ambiguous (word : Text) (names : List Text)
  | noValue (flag : Flag)
  | needlessValue (flag : Flag) (value : Text)
  | badInteger (flag : Flag) (value : Text)
  | badNumber (flag : Flag) (value : Text)
  | badTruth (flag : Flag) (value : Text)
  | unrecognized (words : List Text)
  | noInput
  | badSetting (fault : Fault)

namespace Misuse

def ofFlag (f : Flag) (rest : Text) : Text := "argument " ++ f.title ++ ": " ++ rest

def message : Misuse → Text
  | .ambiguous word names =>
    "ambiguous option: " ++ word ++ " could match " ++ Text.join ", " names
  | .noValue f => ofFlag f "expected one argument"
  | .needlessValue f value => ofFlag f ("ignored explicit argument " ++ Text.quoted value)
  | .badInteger f value => ofFlag f ("invalid int value: " ++ Text.quoted value)
  | .badNumber f value => ofFlag f ("invalid float value: " ++ Text.quoted value)
  | .badTruth f value => ofFlag f (Fault.notTruthText value).message
  | .unrecognized words => "unrecognized arguments: " ++ Text.join " " words
  | .noInput => "Either --dir or at least one FILE is required"
  | .badSetting fault => fault.message

/-- The line that is told before the program stops. -/
def line (m : Misuse) : Text := "evmtrace: error: " ++ m.message ++ "\n"

end Misuse

end CallTrace
