import ContractMachine.Value
import ContractMachine.Wire.Reader
import ContractMachine.Wire.Writer

/-! Values on the wire: the byte of the type, then the payload. -/

namespace ContractMachine

namespace Value

def payload : Value → Bytes
  | address a | account a => a.bytes
  | amount n | timestamp n => Writer.int64 n
  | int32 n => Writer.int32 n
  | boolean b => [if b then 1 else 0]
  | shortText s => Writer.text s
  | tokenId t => t.contract.bytes ++ Writer.uint32 t.index
  | bigInteger n => Writer.block (TwosComplement.encodeMin n)
  | dataType t => [t.code]

def encode (v : Value) : Bytes := v.type.code :: v.payload

end Value

namespace Reader

def dataType : Reader DataType := do
  let b ← byte
  match DataType.ofCode? b with
  | some t => pure t
  | none => throw (.reservedDataType b)

def boolean : Reader Bool := do
  let b ← byte
  if b = 0 then pure false
  else if b = 1 then pure true
  else throw (.invalidBoolean b)

def tokenId : Reader TokenId := do
  let contract ← fixed addressLength
  let index ← uint32
  return ⟨contract, index⟩

def payload : DataType → Reader Value
  | .address => return .address (← fixed addressLength)
  | .account => return .account (← fixed addressLength)
  | .amount => return .amount (← int64)
  | .int32 => return .int32 (← int32)
  | .boolean => return .boolean (← boolean)
  | .shortText => return .shortText (← text maxShortText)
  | .timestamp => return .timestamp (← int64)
  | .tokenId => return .tokenId (← tokenId)
  | .bigInteger => return .bigInteger (TwosComplement.decode (← block maxBigInteger))
  | .dataType => return .dataType (← dataType)

def value : Reader Value := do
  let type ← dataType
  payload type

end Reader

def Value.decode (bytes : Bytes) : Except DecodeError Value := Reader.value.runWhole bytes

end ContractMachine
