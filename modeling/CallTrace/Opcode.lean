import CallTrace.Json.Access
import CallTrace.Number.Hexadecimal

namespace CallTrace.Opcode

def stop : Int := 0x00

def ret : Int := 0xF3

def revert : Int := 0xFD

def selfdestruct : Int := 0xFF

/-- A name with each of the numbers of a range behind it. -/
def family (name : Text) (first count : Nat) : List Text :=
  (List.range' first count).map fun i => name ++ Text.ofNat i

/-- Names of instructions that follow one another, from the first one's number on. -/
def rows : List (Int × List Text) := [
  (0x00, ["STOP", "ADD", "MUL", "SUB", "DIV", "SDIV", "MOD", "SMOD", "ADDMOD", "MULMOD", "EXP",
    "SIGNEXTEND"]),
  (0x10, ["LT", "GT", "SLT", "SGT", "EQ", "ISZERO", "AND", "OR", "XOR", "NOT", "BYTE", "SHL", "SHR",
    "SAR"]),
  (0x20, ["SHA3"]),
  (0x30, ["ADDRESS", "BALANCE", "ORIGIN", "CALLER", "CALLVALUE", "CALLDATALOAD", "CALLDATASIZE",
    "CALLDATACOPY", "CODESIZE", "CODECOPY", "GASPRICE", "EXTCODESIZE", "EXTCODECOPY",
    "RETURNDATASIZE", "RETURNDATACOPY", "EXTCODEHASH", "BLOCKHASH", "COINBASE", "TIMESTAMP",
    "NUMBER", "DIFFICULTY", "GASLIMIT", "CHAINID", "SELFBALANCE", "BASEFEE", "BLOBHASH",
    "BLOBBASEFEE"]),
  (0x50, ["POP", "MLOAD", "MSTORE", "MSTORE8", "SLOAD", "SSTORE", "JUMP", "JUMPI", "PC", "MSIZE",
    "GAS", "JUMPDEST", "TLOAD", "TSTORE", "MCOPY"]),
  (0x5F, family "PUSH" 0 33),
  (0x80, family "DUP" 1 16),
  (0x90, family "SWAP" 1 16),
  (0xA0, family "LOG" 0 5),
  (0xF0, ["CREATE", "CALL", "CALLCODE", "RETURN", "DELEGATECALL", "CREATE2"]),
  (0xFA, ["STATICCALL"]),
  (0xFD, ["REVERT", "INVALID", "SELFDESTRUCT"])]

def inRow? (op : Int) (row : Int × List Text) : Option Text :=
  if op < row.1 then none else row.2[(op - row.1).toNat]?

def name? (op : Int) : Option Text := rows.findSome? (inRow? op)

/-- The name of an instruction, or its number if no instruction has it. -/
def mnemonic (op : Int) : Text := (name? op).getD ("UNKNOWN_" ++ Number.hexMarked op)

/-- The name of the instruction that a value stands for. -/
def mnemonicOf (j : Json) : Except Fault Text :=
  match j.number? with
  | some (.whole n) => .ok (mnemonic n)
  | some (.real x) => ((x.truncate?.filter x.isInt).bind name?).elim (.error .unreadableNumber) .ok
  | none => match j with
    | .text _ => .error .unreadableNumber
    | _ => .error .unsuited

end CallTrace.Opcode
