import CallTrace.Text.Basic

namespace CallTrace

/-- How a transaction, or one call within it, ended: by itself, with a payload or without; halted by an
error; or, for a transaction, rejected before any code ran. -/
inductive Outcome where
  | return
  | revert
  | unknown
  /-- Too little gas for the price of the transaction itself. -/
  | intrinsicGas
  | outOfGas
  /-- Too little gas left to store the code that a creation returned. -/
  | creationOutOfGas
  | typeNotSupported
  | nonceMaxValue
  | senderNotEOA
  /-- The fee offered is below the base fee of the block. -/
  | feecapLessBlocks
  | insufficientFunds
  | codesizeExceeded
  | invalidOpcode
  /-- Created code starts with the reserved octet. -/
  | invalidEOF
  | stackUnderflow
  | stackOverflow
  | memoryOverflow
  | returndataOverflow
  | invalidJumpdest
  | calldepthExceeded
  | accountCollision
  /-- A static call tried to change state. -/
  | writeProtection
  | gasLimitReached
deriving DecidableEq, Inhabited

namespace Outcome

def name : Outcome → Text
  | .return => "RETURN"
  | .revert => "REVERT"
  | .unknown => "UNKNOWN"
  | .intrinsicGas => "INTRINSIC_GAS"
  | .outOfGas => "OUT_OF_GAS"
  | .creationOutOfGas => "CREATION_OUT_OF_GAS"
  | .typeNotSupported => "TYPE_NOT_SUPPORTED"
  | .nonceMaxValue => "NONCE_MAX_VALUE"
  | .senderNotEOA => "SENDER_NOT_EOA"
  | .feecapLessBlocks => "FEECAP_LESS_BLOCKS"
  | .insufficientFunds => "INSUFFICIENT_FUNDS"
  | .codesizeExceeded => "CODESIZE_EXCEEDED"
  | .invalidOpcode => "INVALID_OPCODE"
  | .invalidEOF => "INVALID_EOF"
  | .stackUnderflow => "STACK_UNDERFLOW"
  | .stackOverflow => "STACK_OVERFLOW"
  | .memoryOverflow => "MEMORY_OVERFLOW"
  | .returndataOverflow => "RETURNDATA_OVERFLOW"
  | .invalidJumpdest => "INVALID_JUMPDEST"
  | .calldepthExceeded => "CALLDEPTH_EXCEEDED"
  | .accountCollision => "ACCOUNT_COLLISION"
  | .writeProtection => "WRITE_PROTECTION"
  | .gasLimitReached => "GAS_LIMIT_REACHED"

def all : List Outcome :=
  [.return, .revert, .unknown, .intrinsicGas, .outOfGas, .creationOutOfGas, .typeNotSupported,
    .nonceMaxValue, .senderNotEOA, .feecapLessBlocks, .insufficientFunds, .codesizeExceeded,
    .invalidOpcode, .invalidEOF, .stackUnderflow, .stackOverflow, .memoryOverflow,
    .returndataOverflow, .invalidJumpdest, .calldepthExceeded, .accountCollision,
    .writeProtection, .gasLimitReached]

def ofName? (s : Text) : Option Outcome := all.find? (·.name = s)

/-- Whether the instruction that raised this error is itself a step of the trace. -/
def isPostError : Outcome → Bool
  | .invalidJumpdest | .returndataOverflow | .writeProtection | .invalidOpcode => true
  | _ => false

/-- Whether an end of this kind carries a payload. -/
def hasData : Outcome → Bool
  | .return | .revert => true
  | _ => false

theorem ofName?_name (o : Outcome) : ofName? o.name = some o := by cases o <;> decide

end Outcome

end CallTrace
