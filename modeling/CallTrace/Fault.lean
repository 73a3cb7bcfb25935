import CallTrace.Json.Display
import CallTrace.Number.Hexadecimal
import CallTrace.Text.Blank

namespace CallTrace

/-- Why a path does not serve. -/
inductive FileFault where
  | missing (path : Text)
  | present (path : Text)
  | isDirectory (path : Text)
  | notDirectory (path : Text)
  | forbidden (path : Text)
  /-- A name in the path, or the path itself, is longer than names may be. -/
  | tooLong (path : Text)
  /-- The words that a program was to be started with are too long. -/
  | wordsTooLong (program : Text)
  /-- A packed file was read as text. -/
  | unreadable (path : Text)
  /-- A file that is not packed was read as one that is; its first octets are told. -/
  | notPacked (opening : Octets)
deriving DecidableEq

namespace FileFault

def numbered (number : Nat) (reason path : Text) : Text :=
  "[Errno " ++ Text.ofNat number ++ "] " ++ reason ++ ": " ++ Text.quoted path

def message : FileFault → Text
  | .missing path => numbered 2 "No such file or directory" path
  | .present path => numbered 17 "File exists" path
  | .isDirectory path => numbered 21 "Is a directory" path
  | .notDirectory path => numbered 20 "Not a directory" path
  | .forbidden path => numbered 13 "Permission denied" path
  | .wordsTooLong program => numbered 7 "Argument list too long" program
  | .tooLong path => numbered 36 "File name too long" path
  | .unreadable path => Text.quoted path ++ " holds no text"
  | .notPacked opening => "Not a gzipped file (" ++ Text.quotedOctets opening ++ ")"

end FileFault

/-- How a process failed: it took too long, ended with a status other than zero, or never started. -/
inductive ProcessFault where
  | timeout (limit : Json)
  | exit (status : Json) (stderr : Text)
  | launch (program : Json) (reason : Option FileFault)

/-- Why a process never started, where that is known. -/
def reasonText : Option FileFault → Text
  | none => ""
  | some reason => ": " ++ reason.message

def ProcessFault.message : ProcessFault → Text
  | .timeout limit => limit.plain
  | .exit status stderr => "process exited with status " ++ status.plain ++ ": " ++ Text.trimmed stderr
  | .launch program reason =>
    "Could not launch " ++ program.display ++ reasonText reason

inductive Fault where
  /-- Something other than a text stands where hexadecimal digits should. -/
  | notHexText (sort : Text)
  | badHexDigits (s : Text)
  | oddHexDigits (s : Text)
  | unbalancedMarkers (s : Text)
  | emptyMarker (s : Text)
  | leadingMarker (s : Text)
  /-- A line end stands among the digits of octets. -/
  | lineEndInOctets
  /-- A line end stands where the digits of a quantity should. -/
  | lineEndAsQuantity
  | valueTooLarge (value : Nat) (width : Json)
  | negativeValue (value : Json)
  | badThreshold (n : Json)
  | negativeSize (n : Json)
  /-- A value is of a sort that does not serve. -/
  | unsuited
  /-- A value that is no object was asked for its fields. -/
  | noFields
  | missingKey (key : Json)
  | unreadableNumber
  | infiniteNumber
  /-- A number is no count. -/
  | countTooLarge
  /-- An integer has too many digits to be written in decimal. -/
  | unwritableNumber
  /-- A width is too great for a field to have. -/
  | widthTooLarge
  | outOfMemory
  | tooDeep
  /-- A text that holds half of a surrogate pair has no octets. -/
  | unencodable
  /-- A name for the system holds a zero. -/
  | zeroInName
  /-- A name for the system has no letters at all. -/
  | emptyName
  | notJson
  | accountLacks (key : Json)
  | environmentLacks (keys : List Text)
  | stateTestLacks (name : Text) (key : Json)
  | postStateLacks (fork : Text) (key : Json)
  | transactionLacks (key : Json)
  | templateLacks (key : Json)
  | traceTestLacks (name : Text) (key : Json)
  /-- A transaction offers no price for its gas. -/
  | unpriced (keys : List Json)
  | notDocument (path : Text)
  | stepLacks (key step : Json)
  | traceLacks (key : Json)
  | unknownElement (element : Json)
  | missingIndex (key : Text)
  | noChoices (name : Text)
  | indexOutOfRange (key : Text) (index : Json) (count : Nat) (name : Text)
  | unknownFields (names : List Text)
  | unknownErrorText (s : Text)
  | lineNotJson (line : Nat)
  | lineNotObject (line : Nat) (value : Json)
  | lineNotRecord (line : Nat) (record : Json)
  | stepWithout (line : Nat) (field : Text) (record : Json)
  | stepBadField (line : Nat) (field : Text) (value : Json)
  | stepBadDepth (line : Nat) (depth : Int)
  | stepBadStack (line : Nat) (record : Json)
  | pastEnd
  | beforeStart
  | leftOver (count : Nat) (next : Json)
  | noRecords
  | noTraceFile (directory : Text)
  | emptyTraceFile (name : Text)
  | severalTraceFiles (names : List Text)
  /-- A call ended on an instruction that ends no call, or before any. -/
  | unexpectedEnd (op : Option Int)
  /-- A call ended on a return that lacks its operands. -/
  | missingOperands (op pc : Int) (name : Json) (count : Nat)
  | process (fault : ProcessFault)
  | tool (binary fork : Json) (fault : ProcessFault)
  | file (fault : FileFault)
  | unsetVariable (name : Text)
  | badIntegerSetting (name : Text) (value : Json)
  | badNumberSetting (name : Text) (value : Json)
  | badTimeout (timeout : Json)
  | badStackSize (size : Json)
  | badWorkers (count : Json)
  /-- A layer sets a part that the adapter, which is shown in full too, does not have. -/
  | unknownSetting (adapter key shown : Text)
  | notTruthText (s : Text)

namespace Fault

/-- The families that failures are reported by. -/
inductive Family where
  | malformedHex
  | valueTooLarge
  | malformedFixture
  | unsupportedTransactionType
  | processTimeout
  | processNonZeroExit
  | processLaunchFailure
  | externalToolFailure
  | unrecognisedErrorText
  | malformedTrace
  | emptyTraceOutput
  | multipleTraceFiles
  | unexpectedEndOfTrace
  | validation
deriving DecidableEq

def Family.name : Family → Text
  | .malformedHex => "MalformedHex"
  | .valueTooLarge => "ValueTooLarge"
  | .malformedFixture => "MalformedFixture"
  | .unsupportedTransactionType => "UnsupportedTransactionType"
  | .processTimeout => "ProcessTimeout"
  | .processNonZeroExit => "ProcessNonZeroExit"
  | .processLaunchFailure => "ProcessLaunchFailure"
  | .externalToolFailure => "ExternalToolFailure"
  | .unrecognisedErrorText => "UnrecognisedErrorText"
  | .malformedTrace => "MalformedTrace"
  | .emptyTraceOutput => "EmptyTraceOutput"
  | .multipleTraceFiles => "MultipleTraceFilesDetected"
  | .unexpectedEndOfTrace => "UnexpectedEndOfTrace"
  | .validation => "ValidationError"

/-- The family of a fault that a run reports; `none` for one that ends the run. -/
def family? : Fault → Option Family
  | .notHexText _ | .badHexDigits _ | .oddHexDigits _ | .unbalancedMarkers _ | .emptyMarker _
  | .leadingMarker _ => some .malformedHex
  | .valueTooLarge .. => some .valueTooLarge
  | .accountLacks _ | .environmentLacks _ | .stateTestLacks .. | .postStateLacks ..
  | .transactionLacks _ | .templateLacks _ | .traceTestLacks .. | .notDocument _ =>
    some .malformedFixture
  | .unpriced _ => some .unsupportedTransactionType
  | .process (.timeout _) => some .processTimeout
  | .process (.exit ..) => some .processNonZeroExit
  | .process (.launch ..) => some .processLaunchFailure
  | .tool .. => some .externalToolFailure
  | .unknownErrorText _ => some .unrecognisedErrorText
  | .stepLacks .. | .traceLacks _ | .unknownElement _ | .lineNotJson _ | .lineNotObject ..
  | .lineNotRecord .. | .stepWithout .. | .stepBadField .. | .stepBadDepth .. | .stepBadStack ..
  | .pastEnd | .beforeStart | .leftOver .. => some .malformedTrace
  | .noRecords | .noTraceFile _ | .emptyTraceFile _ => some .emptyTraceOutput
  | .severalTraceFiles _ => some .multipleTraceFiles
  | .unexpectedEnd _ | .missingOperands .. => some .unexpectedEndOfTrace
  | .missingIndex _ | .noChoices _ | .indexOutOfRange .. => some .validation
  | _ => none

/-- A fault of the input or of the tool, for which a batch goes on to the next file. -/
def isDomain (f : Fault) : Bool :=
  match f.family? with
  | some .validation | none => false
  | some _ => true

/-- A fault for which a batch goes on to the next instance. -/
def isInstanceFault (f : Fault) : Bool := f.family?.isSome

/-- A fault of a path, for which a batch goes on to the next file too. -/
def isFile : Fault → Bool
  | .file (.unreadable _) => false
  | .file _ => true
  | _ => false

def onLine (line : Nat) (rest : Text) : Text := "Line " ++ Text.ofNat line ++ " of trace " ++ rest

def stepOnLine (line : Nat) (rest : Text) : Text :=
  "Step on line " ++ Text.ofNat line ++ " of trace has " ++ rest

def message : Fault → Text
  | .notHexText sort => "Expected a hex string, got " ++ sort
  | .badHexDigits s => "Invalid hex digits in " ++ Text.quoted s
  | .oddHexDigits s => "Odd number of hex digits in " ++ Text.quoted s
  | .unbalancedMarkers s => "Unbalanced run-length markers in " ++ Text.quoted s
  | .emptyMarker s => "Empty run-length marker in " ++ Text.quoted s
  | .leadingMarker s => "Run-length marker with no preceding byte in " ++ Text.quoted s
  | .lineEndInOctets | .lineEndAsQuantity => "A line end is no hex digit"
  | .valueTooLarge value width =>
    "Value 0x" ++ Number.hexDigits value ++ " does not fit in " ++ width.plain ++ " bytes"
  | .negativeValue value => "Cannot hex encode negative value " ++ value.plain
  | .badThreshold n => "Run length threshold must be positive, got " ++ n.plain
  | .negativeSize n => "Size must be non-negative, got " ++ n.plain
  | .unsuited => "The value is of an unsuited sort"
  | .noFields => "The value has no fields"
  | .missingKey key => key.display
  | .unreadableNumber => "The text is no number"
  | .infiniteNumber => "The number is infinite"
  | .countTooLarge => "The number is too large for a count"
  | .unwritableNumber => "The number has too many digits"
  | .widthTooLarge => "The width is too large"
  | .outOfMemory => "There is not enough memory"
  | .tooDeep => "The nesting is too deep"
  | .unencodable => "The text has no encoding"
  | .zeroInName => "The name holds a zero"
  | .emptyName => "The name is empty"
  | .notJson => "The text is not JSON"
  | .accountLacks key => "Account is missing required field " ++ key.display
  | .environmentLacks keys => "Environment is missing required keys: " ++ Text.join ", " keys
  | .stateTestLacks name key => "State test " ++ name ++ " is missing " ++ key.display
  | .postStateLacks fork key => "Post state for " ++ fork ++ " is missing " ++ key.display
  | .transactionLacks key => "Transaction is missing required key " ++ key.display
  | .templateLacks key => "Transaction template is missing required key " ++ key.display
  | .traceTestLacks name key => "Trace test " ++ name ++ " is missing " ++ key.display
  | .unpriced keys =>
    "Transaction has neither gasPrice nor EIP-1559 fee fields: " ++ (Json.list keys).display
  | .notDocument path => path ++ " is not valid JSON"
  | .stepLacks key step => "Trace step is missing " ++ key.display ++ ": " ++ step.display
  | .traceLacks key => "Trace is missing " ++ key.display ++ " or has an unknown outcome"
  | .unknownElement element => "Unknown trace element: " ++ element.plain
  | .missingIndex key => "Missing template index " ++ Text.quoted key
  | .noChoices name => "Template has no " ++ name ++ " values to select from"
  | .indexOutOfRange key index count name =>
    "Template index " ++ key ++ "=" ++ index.plain ++ " out of range for " ++ Text.ofNat count ++ " " ++
      name ++ " values"
  | .unknownFields names => "Unknown transaction fields: " ++ Text.join ", " names
  | .unknownErrorText s => s
  | .lineNotJson line => onLine line "is not JSON"
  | .lineNotObject line value => onLine line ("is not an object: " ++ value.display)
  | .lineNotRecord line record => onLine line ("is not a recognised record: " ++ record.display)
  | .stepWithout line field record =>
    stepOnLine line ("no " ++ Text.quoted field ++ ": " ++ record.display)
  | .stepBadField line field value =>
    stepOnLine line ("a bad " ++ Text.quoted field ++ ": " ++ value.display)
  | .stepBadDepth line depth => stepOnLine line ("depth " ++ Text.ofInt depth)
  | .stepBadStack line record => stepOnLine line ("a bad stack: " ++ record.display)
  | .pastEnd => "Attempted to read past the end of the trace"
  | .beforeStart => "Attempted to backtrack past the start of the trace"
  | .leftOver count next =>
    Text.ofNat count ++ " records left over after the outermost call completed, next is " ++ next.display
  | .noRecords => "Trace contains no records"
  | .noTraceFile directory => "No trace file was written to " ++ directory
  | .emptyTraceFile name => "Trace file " ++ name ++ " is empty"
  | .severalTraceFiles names => "Expected one trace file, found " ++ Text.join ", " names
  | .unexpectedEnd none => "None"
  | .unexpectedEnd (some op) => Text.ofInt op
  | .missingOperands op .. => Text.ofInt op
  | .process fault => fault.message
  | .tool binary fork fault => binary.plain ++ " t8n failed for " ++ fork.plain ++ ": " ++ fault.message
  | .file fault => fault.message
  | .unsetVariable name => Text.quoted ("Must set environment variable " ++ name)
  | .badIntegerSetting name value =>
    "Environment variable " ++ name ++ " must be an integer, got " ++ value.display
  | .badNumberSetting name value =>
    "Environment variable " ++ name ++ " must be a number, got " ++ value.display
  | .badTimeout timeout => "Timeout must be positive, got " ++ timeout.plain
  | .badStackSize size => "Stack size must be non-negative, got " ++ size.plain
  | .badWorkers count => "Need at least one worker, got " ++ count.plain
  | .unknownSetting adapter key shown =>
    "The " ++ adapter ++ ".configure cannot set attributes that are not already present on the base " ++
      "class. The attribute `" ++ key ++ "` was not found on the base class `" ++ shown ++ "`"
  | .notTruthText s => "Expected true or false, got " ++ Text.quoted s

/-- Says what a missing key means here; other results pass. -/
def onMissing (wrap : Json → Fault) : Except Fault α → Except Fault α
  | .error (.missingKey key) => .error (wrap key)
  | r => r

theorem onMissing_ok (wrap : Json → Fault) (a : α) : onMissing wrap (.ok a) = .ok a := rfl

end Fault

end CallTrace
