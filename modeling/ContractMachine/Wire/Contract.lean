import ContractMachine.Contract
import ContractMachine.Wire.Instruction

/-! Functions and contracts on the wire. Writing never fails; what does not fit is cut or
wrapped, and reading it back gives something else. -/

namespace ContractMachine

def FunctionKind.encode : FunctionKind → Bytes
  | callable => [0]
  | onInit => [1]
  | onDeposit var => [2, var]
  | onWithdraw var => [3, var]

def DataType.encode (t : DataType) : Bytes := [t.code]

def Function.encode (f : Function) : Bytes :=
  Writer.uint16 f.id ++ f.kind.encode ++ Writer.list8 DataType.encode f.returns ++
    Writer.list8 DataType.encode f.params ++ Writer.list16 Instruction.encode f.code

def VarDecl.encode (d : VarDecl) : Bytes := [d.index, d.type.code]

def MapDecl.encode (d : MapDecl) : Bytes := [d.index, d.key.code, d.value.code]

def Signature.encode (s : Signature) : Bytes :=
  Writer.text s.name ++ Writer.list8 Writer.text s.params ++ Writer.list8 Writer.text s.returns

def Textual.encode (t : Textual) : Bytes :=
  Writer.list16 Signature.encode t.triggers ++ Writer.list16 Signature.encode t.functions ++
    Writer.list16 Writer.text t.stateVars ++ Writer.list16 Writer.text t.stateMaps

/-- A presence flag, then the names if there are any. -/
def Textual.encodeOption : Option Textual → Bytes
  | none => [0]
  | some t => 1 :: t.encode

def Contract.encode (c : Contract) : Bytes :=
  Writer.shortName c.language ++ Writer.int32 c.version ++
    Writer.list16 Function.encode c.triggers ++ Writer.list16 Function.encode c.functions ++
    Writer.list16 VarDecl.encode c.stateVars ++ Writer.list16 MapDecl.encode c.stateMaps ++
    Textual.encodeOption c.textual

/-- Longest name, in bytes, in the textual part. -/
def maxName : Nat := 1024

namespace Reader

def functionKind : Reader FunctionKind := do
  let b ← byte
  if b = 0 then return .callable
  else if b = 1 then return .onInit
  else if b = 2 then return .onDeposit (← byte)
  else if b = 3 then return .onWithdraw (← byte)
  else throw (.invalidFunctionKind b)

def function : Reader Function := do
  let id ← uint16
  let kind ← functionKind
  let returns ← list8 dataType
  let params ← list8 dataType
  let code ← list16 instruction
  return { id, kind, returns, params, code }

def varDecl : Reader VarDecl := do
  let index ← byte
  let type ← dataType
  return { index, type }

def mapDecl : Reader MapDecl := do
  let index ← byte
  let key ← dataType
  let value ← dataType
  return { index, key, value }

def signature : Reader Signature := do
  let name ← text maxName
  let params ← list8 (text maxName)
  let returns ← list8 (text maxName)
  return { name, params, returns }

def textual : Reader Textual := do
  let triggers ← list16 signature
  let functions ← list16 signature
  let stateVars ← list16 (text maxName)
  let stateMaps ← list16 (text maxName)
  return { triggers, functions, stateVars, stateMaps }

def textualOption : Reader (Option Textual) := do
  let b ← byte
  if b = 0 then return none
  else if b = 1 then return some (← textual)
  else throw (.invalidFlag b)

/-- A one-byte length, then text. -/
def shortName : Reader String := do
  let offset ← position
  let length ← byte
  let bytes ← take length.toNat
  decodeText offset bytes

def contract : Reader Contract := do
  let language ← shortName
  let version ← int32
  let triggers ← list16 function
  let functions ← list16 function
  let stateVars ← list16 varDecl
  let stateMaps ← list16 mapDecl
  let textual ← textualOption
  return { language, version, triggers, functions, stateVars, stateMaps, textual }

end Reader

def Contract.decode (bytes : Bytes) : Except DecodeError Contract :=
  Reader.contract.runWhole bytes

end ContractMachine
