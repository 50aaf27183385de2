/-! Operation codes: the first byte of an encoded instruction and the name used in messages.
Codes come in blocks of sixteen, one block to a family of operations. -/

namespace ContractMachine

inductive Opcode where
  | loadSigner | loadCaller | loadTimestamp | loadLastTokenIndex
  | assertSigner | assertCaller | assertTrue | assertEqual | assertPermitted | assertNotExpired
  | constant | add | minus | multiply | divide | min | max | sqrt | convert | not
  | greater | greaterEqual
  | setVar | getVar | getVarOrZero | addVar | minusVar
  | setEntry | addEntry | minusEntry | getEntry | getEntryOrZero
  | newToken | deposit | transfer | balance
  deriving DecidableEq, Repr, Inhabited

namespace Opcode

/-- Every operation code, in ascending order of its byte. -/
def all : List Opcode :=
  [loadSigner, loadCaller, loadTimestamp, loadLastTokenIndex,
    assertSigner, assertCaller, assertTrue, assertEqual, assertPermitted, assertNotExpired,
    constant, add, minus, multiply, divide, min, max, sqrt, convert, not,
    greater, greaterEqual,
    setVar, getVar, getVarOrZero, addVar, minusVar,
    setEntry, addEntry, minusEntry, getEntry, getEntryOrZero,
    newToken, deposit, transfer, balance]

/-- The byte that stands for the operation. -/
def code : Opcode → UInt8
  | loadSigner => 0x01
  | loadCaller => 0x02
  | loadTimestamp => 0x03
  | loadLastTokenIndex => 0x04
  | assertSigner => 0x10
  | assertCaller => 0x11
  | assertTrue => 0x12
  | assertEqual => 0x13
  | assertPermitted => 0x14
  | assertNotExpired => 0x15
  | constant => 0x20
  | add => 0x21
  | minus => 0x22
  | multiply => 0x23
  | divide => 0x24
  | min => 0x25
  | max => 0x26
  | sqrt => 0x27
  | convert => 0x28
  | not => 0x29
  | greater => 0x30
  | greaterEqual => 0x31
  | setVar => 0x40
  | getVar => 0x41
  | getVarOrZero => 0x42
  | addVar => 0x43
  | minusVar => 0x44
  | setEntry => 0x50
  | addEntry => 0x51
  | minusEntry => 0x52
  | getEntry => 0x53
  | getEntryOrZero => 0x54
  | newToken => 0x60
  | deposit => 0x61
  | transfer => 0x62
  | balance => 0x63

/-- The name of the operation in messages. -/
def mnemonic : Opcode → String
  | loadSigner => "loadSigner"
  | loadCaller => "loadCaller"
  | loadTimestamp => "loadTimestamp"
  | loadLastTokenIndex => "loadLastTokenIndex"
  | assertSigner => "assertSigner"
  | assertCaller => "assertCaller"
  | assertTrue => "assertTrue"
  | assertEqual => "assertEqual"
  | assertPermitted => "assertPermitted"
  | assertNotExpired => "assertNotExpired"
  | constant => "basicConstantGet"
  | add => "basicAdd"
  | minus => "basicMinus"
  | multiply => "basicMultiply"
  | divide => "basicDivide"
  | min => "basicMin"
  | max => "basicMax"
  | sqrt => "basicSqrtBigint"
  | convert => "basicConvert"
  | not => "basicNot"
  | greater => "compareGreater"
  | greaterEqual => "compareGreaterEqual"
  | setVar => "cdbvSet"
  | getVar => "cdbvrGet"
  | getVarOrZero => "cdbvrGetOrDefault"
  | addVar => "cdbvStateValAdd"
  | minusVar => "cdbvStateValMinus"
  | setEntry => "cdbvMapSet"
  | addEntry => "cdbvMapValAdd"
  | minusEntry => "cdbvMapValMinus"
  | getEntry => "cdbvrMapGet"
  | getEntryOrZero => "cdbvrMapGetOrDefault"
  | newToken => "tdbNewToken"
  | deposit => "tdbaDeposit"
  | transfer => "tdbaTransfer"
  | balance => "tdbarBalance"

/-- The first language version that has the operation. -/
def minVersion : Opcode → Int32
  | sqrt | convert => 2
  | _ => 1

/-- The operation that a byte stands for; the other bytes are reserved. -/
def ofCode? : UInt8 → Option Opcode
  | 0x01 => some loadSigner
  | 0x02 => some loadCaller
  | 0x03 => some loadTimestamp
  | 0x04 => some loadLastTokenIndex
  | 0x10 => some assertSigner
  | 0x11 => some assertCaller
  | 0x12 => some assertTrue
  | 0x13 => some assertEqual
  | 0x14 => some assertPermitted
  | 0x15 => some assertNotExpired
  | 0x20 => some constant
  | 0x21 => some add
  | 0x22 => some minus
  | 0x23 => some multiply
  | 0x24 => some divide
  | 0x25 => some min
  | 0x26 => some max
  | 0x27 => some sqrt
  | 0x28 => some convert
  | 0x29 => some not
  | 0x30 => some greater
  | 0x31 => some greaterEqual
  | 0x40 => some setVar
  | 0x41 => some getVar
  | 0x42 => some getVarOrZero
  | 0x43 => some addVar
  | 0x44 => some minusVar
  | 0x50 => some setEntry
  | 0x51 => some addEntry
  | 0x52 => some minusEntry
  | 0x53 => some getEntry
  | 0x54 => some getEntryOrZero
  | 0x60 => some newToken
  | 0x61 => some deposit
  | 0x62 => some transfer
  | 0x63 => some balance
  | _ => none

@[simp] theorem ofCode?_code (op : Opcode) : ofCode? op.code = some op := by
  cases op <;> decide

theorem code_of_ofCode? {byte : UInt8} {op : Opcode} (h : ofCode? byte = some op) :
    op.code = byte := by
  unfold ofCode? at h
  split at h <;> cases h <;> rfl

end Opcode

end ContractMachine
