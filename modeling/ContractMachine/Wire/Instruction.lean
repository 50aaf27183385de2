import ContractMachine.Instruction
import ContractMachine.Wire.Value

/-! Instructions on the wire: the operation code, then one byte for each register or slot, in
operand order. A literal stands in the place of its operand. -/

namespace ContractMachine

namespace Instruction

/-- What stands before the register of the result: a literal, or the slot and the registers read. -/
def inputs (i : Instruction) : Bytes :=
  match i with
  | constant value _ => value.encode
  | setVar var value | moveVar _ var value => [var, value]
  | getVar var _ | getVarOrZero var _ => [var]
  | setEntry map key value | moveEntry _ map key value => [map, key, value]
  | getEntry map key _ | getEntryOrZero map key _ => [map, key]
  | _ => i.sources

def operands (i : Instruction) : Bytes := i.inputs ++ i.dest?.toList

def encode (i : Instruction) : Bytes := i.opcode.code :: i.operands

end Instruction

namespace Reader

def opcode : Reader Opcode := do
  let b ← byte
  match Opcode.ofCode? b with
  | some op => pure op
  | none => throw (.reservedOpcode b)

def operand1 (make : UInt8 → Instruction) : Reader Instruction := do
  let a ← byte
  return make a

def operand2 (make : UInt8 → UInt8 → Instruction) : Reader Instruction := do
  let a ← byte
  operand1 (make a)

def operand3 (make : UInt8 → UInt8 → UInt8 → Instruction) : Reader Instruction := do
  let a ← byte
  operand2 (make a)

def operand4 (make : UInt8 → UInt8 → UInt8 → UInt8 → Instruction) : Reader Instruction := do
  let a ← byte
  operand3 (make a)

def operands : Opcode → Reader Instruction
  | .loadSigner => operand1 (.loadParty .signer)
  | .loadCaller => operand1 (.loadParty .caller)
  | .loadTimestamp => operand1 .loadTimestamp
  | .loadLastTokenIndex => operand1 .loadLastTokenIndex
  | .assertSigner => operand1 (.assertParty .signer)
  | .assertCaller => operand1 (.assertParty .caller)
  | .assertTrue => operand1 .assertTrue
  | .assertEqual => operand2 .assertEqual
  | .assertPermitted => operand1 .assertPermitted
  | .assertNotExpired => operand2 .assertNotExpired
  | .constant => do
    let v ← value
    operand1 (.constant v)
  | .add => operand3 (.binary .add)
  | .minus => operand3 (.binary .minus)
  | .multiply => operand3 (.binary .multiply)
  | .divide => operand3 (.binary .divide)
  | .min => operand3 (.binary .min)
  | .max => operand3 (.binary .max)
  | .sqrt => operand2 .sqrt
  | .convert => operand3 .convert
  | .not => operand2 .not
  | .greater => operand3 (.compare .greater)
  | .greaterEqual => operand3 (.compare .greaterEqual)
  | .setVar => operand2 .setVar
  | .getVar => operand2 .getVar
  | .getVarOrZero => operand2 .getVarOrZero
  | .addVar => operand2 (.moveVar .add)
  | .minusVar => operand2 (.moveVar .minus)
  | .setEntry => operand3 .setEntry
  | .addEntry => operand3 (.moveEntry .add)
  | .minusEntry => operand3 (.moveEntry .minus)
  | .getEntry => operand3 .getEntry
  | .getEntryOrZero => operand3 .getEntryOrZero
  | .newToken => operand3 .newToken
  | .deposit => operand3 .deposit
  | .transfer => operand4 .transfer
  | .balance => operand3 .balance

def instruction : Reader Instruction := do
  let op ← opcode
  operands op

end Reader

def Instruction.decode (bytes : Bytes) : Except DecodeError Instruction :=
  Reader.instruction.runWhole bytes

end ContractMachine
