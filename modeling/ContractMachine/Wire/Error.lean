import ContractMachine.Bytes.Hex

/-! Why bytes are refused. -/

namespace ContractMachine

inductive DecodeError where
  | unexpectedEnd (offset : Nat)
  | trailingBytes (offset count : Nat)
  | reservedOpcode (byte : UInt8)
  | reservedDataType (byte : UInt8)
  | invalidFunctionKind (byte : UInt8)
  | invalidBoolean (byte : UInt8)
  | invalidFlag (byte : UInt8)
  | invalidText (offset : Nat)
  | payloadTooLong (offset length bound : Nat)
  deriving DecidableEq

/-- The label of the cause. -/
def DecodeError.name : DecodeError → String
  | unexpectedEnd _ => "UnexpectedEnd"
  | trailingBytes _ _ => "TrailingBytes"
  | reservedOpcode _ => "ReservedOpcode"
  | reservedDataType _ => "ReservedDataType"
  | invalidFunctionKind _ => "InvalidFunctionKind"
  | invalidBoolean _ => "InvalidBoolean"
  | invalidFlag _ => "InvalidFlag"
  | invalidText _ => "InvalidUtf8"
  | payloadTooLong _ _ _ => "PayloadTooLong"

def DecodeError.message : DecodeError → String
  | unexpectedEnd offset => s!"unexpected end of bytecode at offset {offset}"
  | trailingBytes offset count => s!"{count} trailing bytes after contract at offset {offset}"
  | reservedOpcode byte => "reserved opcode: 0x" ++ Hex.encode [byte]
  | reservedDataType byte => "reserved data type: 0x" ++ Hex.encode [byte]
  | invalidFunctionKind byte => "invalid function kind: 0x" ++ Hex.encode [byte]
  | invalidBoolean byte => "invalid boolean byte: 0x" ++ Hex.encode [byte]
  | invalidFlag byte => "invalid presence flag: 0x" ++ Hex.encode [byte]
  | invalidText offset => s!"invalid UTF-8 in text at offset {offset}"
  | payloadTooLong offset length bound =>
    s!"payload of {length} bytes exceeds limit {bound} at offset {offset}"

end ContractMachine
