import CallTrace.Fault
import CallTrace.Outcome
import CallTrace.Text.Lowered

namespace CallTrace.Outcome

/-- What a step or a summary says of code that reverted. -/
def revertText : Text := "execution reverted"

def executionTexts : List (Text × Outcome) := [
  (revertText, .revert),
  ("gas uint64 overflow", .outOfGas),
  ("out of gas", .outOfGas),
  ("invalid jump destination", .invalidJumpdest),
  ("return data out of bounds", .returndataOverflow),
  ("returndata overflow", .returndataOverflow),
  ("call depth exceeded", .calldepthExceeded),
  ("write protection", .writeProtection),
  ("max code size exceeded", .codesizeExceeded),
  ("contract creation code storage out of gas", .creationOutOfGas),
  ("invalid code: must not begin with 0xef", .invalidEOF),
  ("must not begin with 0xef", .invalidEOF),
  ("contract address collision", .accountCollision),
  ("nonce uint64 overflow", .nonceMaxValue)]

/-- Texts that further words may follow. -/
def executionOpenings : List (Text × Outcome) := [
  ("stack underflow", .stackUnderflow),
  ("stack limit reached", .stackOverflow),
  ("invalid opcode", .invalidOpcode)]

def opening? (s : Text) : Option Outcome :=
  executionOpenings.findSome? fun (opening, o) => if s.startsWith opening then some o else none

def execution? (s : Text) : Option Outcome := s.lookup executionTexts <|> opening? s

def ofExecutionText (s : Text) : Except Fault Outcome :=
  (execution? s).elim (.error (.unknownErrorText s)) .ok

/-- The outcome for the error of a step or of a summary, which has to be a text. -/
def ofExecutionError : Json → Except Fault Outcome
  | .text s => ofExecutionText s
  | _ => .error .noFields

/-- Why a transaction never ran; the tool wraps these texts in others. -/
def rejectionTexts : List (Text × Outcome) := [
  ("intrinsic gas too low", .intrinsicGas),
  ("insufficient funds", .insufficientFunds),
  ("nonce has max value", .nonceMaxValue),
  ("transaction type not supported", .typeNotSupported),
  ("sender not an eoa", .senderNotEOA),
  ("max fee per gas less than block base fee", .feecapLessBlocks),
  ("gas limit reached", .gasLimitReached)]

def rejection? (s : Text) : Option Outcome :=
  rejectionTexts.findSome? fun (part, o) =>
    if Text.holds part (Text.lowered s) then some o else none

def ofRejectionText (s : Text) : Except Fault Outcome :=
  (rejection? s).elim (.error (.unknownErrorText s)) .ok

def ofRejection : Json → Except Fault Outcome
  | .text s => ofRejectionText s
  | _ => .error .noFields

/-- The outcome that a document names. -/
def ofJson (j : Json) : Except Fault Outcome :=
  match j with
  | .text s => (ofName? s).elim (.error (.missingKey j)) .ok
  | .list _ | .object _ => .error .unsuited
  | _ => .error (.missingKey j)

end CallTrace.Outcome
