import ContractMachine.Contract
import ContractMachine.State.TokenLedger

/-! Why a call fails. A trap is the cause for which an instruction fails; the code that raises the
error names the position of the instruction with it. -/

namespace ContractMachine

inductive Trap where
  | undefinedRegister (register : Register)
  | registerOutOfRange (register : Register)
  | typeMismatch (expected found : DataType)
  | invalidOperand (op : Opcode) (found : DataType)
  | missingParty (party : Party)
  | missingTimestamp
  | noTokens
  | notParty (party : Party)
  | notPermitted
  | assertionFailed
  | notEqual
  | deadlineExceeded (now deadline : Int64)
  | overflow
  | divisionByZero
  | negativeSqrt
  | conversion (error : ConvertError)
  | nonPositiveDelta
  | undeclaredVar (index : SlotIndex)
  | undeclaredMap (index : SlotIndex)
  | unsetVar (index : SlotIndex)
  | unsetEntry (index : SlotIndex)
  | noDefaultValue (type : DataType)
  | underflow
  | token (error : TokenError)
  deriving DecidableEq

def Party.name : Party → String
  | signer => "signer"
  | caller => "caller"

/-- The party as the account that an assertion failed to find. -/
def Party.title : Party → String
  | signer => "transaction signer"
  | caller => "caller"

namespace Trap

/-- The label of the cause. -/
def name : Trap → String
  | undefinedRegister _ => "UndefinedRegister"
  | registerOutOfRange _ => "RegisterOutOfRange"
  | typeMismatch _ _ => "TypeMismatch"
  | invalidOperand _ _ => "InvalidOperand"
  | missingParty _ => "MissingContext"
  | missingTimestamp => "MissingContext"
  | noTokens => "NoTokens"
  | notParty .signer => "NotSigner"
  | notParty .caller => "NotCaller"
  | notPermitted => "NotPermitted"
  | assertionFailed => "AssertionFailed"
  | notEqual => "NotEqual"
  | deadlineExceeded _ _ => "DeadlineExceeded"
  | overflow => "Overflow"
  | divisionByZero => "DivisionByZero"
  | negativeSqrt => "NegativeSqrt"
  | conversion _ => "Conversion"
  | nonPositiveDelta => "NonPositiveDelta"
  | undeclaredVar _ => "UndeclaredStateVar"
  | undeclaredMap _ => "UndeclaredStateMap"
  | unsetVar _ => "UnsetStateVar"
  | unsetEntry _ => "UnsetMapEntry"
  | noDefaultValue _ => "NoDefaultValue"
  | underflow => "StateUnderflow"
  | token _ => "Token"

/-- The text of a trap at an instruction. -/
def message (position : Nat) : Trap → String
  | undefinedRegister register =>
    s!"register {register} read before write at instruction {position}"
  | registerOutOfRange register => s!"register {register} out of range at instruction {position}"
  | typeMismatch expected found =>
    s!"type mismatch at instruction {position}: expected {expected.name}, found {found.name}"
  | invalidOperand op found =>
    s!"{found.name} operand is not valid for {op.mnemonic} at instruction {position}"
  | missingParty party => s!"execution context has no {party.name} at instruction {position}"
  | missingTimestamp => s!"execution context has no timestamp at instruction {position}"
  | noTokens => s!"no token has been created yet at instruction {position}"
  | notParty party => s!"account is not the {party.title} at instruction {position}"
  | notPermitted => s!"permission denied at instruction {position}"
  | assertionFailed => s!"assertion failed at instruction {position}"
  | notEqual => s!"values differ at instruction {position}"
  | deadlineExceeded now deadline =>
    s!"deadline {deadline} passed at {now} (instruction {position})"
  | overflow => s!"arithmetic overflow at instruction {position}"
  | divisionByZero => s!"division by zero at instruction {position}"
  | negativeSqrt => s!"square root of a negative number at instruction {position}"
  | conversion error => s!"conversion failed at instruction {position}: {error.message}"
  | nonPositiveDelta => s!"delta must be positive at instruction {position}"
  | undeclaredVar index => s!"state var {index} is not declared (instruction {position})"
  | undeclaredMap index => s!"state map {index} is not declared (instruction {position})"
  | unsetVar index => s!"state var {index} is unset at instruction {position}"
  | unsetEntry index => s!"state map {index} has no entry for the key at instruction {position}"
  | noDefaultValue type => s!"{type.name} has no default value (instruction {position})"
  | underflow => s!"state slot would go negative at instruction {position}"
  | token error => s!"token ledger at instruction {position}: {error.message}"

def kind : Trap → ErrorKind
  | undefinedRegister _ | registerOutOfRange _ => .undefinedRegister
  | typeMismatch _ _ | invalidOperand _ _ => .typeMismatch
  | missingParty _ | missingTimestamp | noTokens | undeclaredVar _ | undeclaredMap _ | unsetVar _
  | unsetEntry _ | noDefaultValue _ => .uninitializedState
  | notParty _ | notPermitted => .authorization
  | assertionFailed | notEqual => .assertion
  | deadlineExceeded _ _ => .deadlineExceeded
  | overflow | divisionByZero | negativeSqrt | nonPositiveDelta => .arithmetic
  | conversion (.unsupported _ _) => .typeMismatch
  | conversion (.outOfRange _) => .arithmetic
  | underflow => .insufficientBalance
  | token error => error.kind

end Trap

inductive ExecError where
  | unknownFunction (id : FunctionId)
  | unacceptedToken (token : TokenId)
  | argumentCount (expected found : Nat)
  | argumentType (index : Nat) (expected found : DataType)
  | argumentTooLong (index length bound : Nat)
  /-- The instruction at this position fails, or an argument has no register (position 0). -/
  | trap (position : Nat) (cause : Trap)
  deriving DecidableEq

/-- A token id with its bytes in decimal. -/
def TokenId.text (t : TokenId) : String :=
  let bytes := ", ".intercalate (t.contract.bytes.map fun b => toString b.toNat)
  s!"TokenId \x7b contract: ContractId([{bytes}]), index: {t.index} \x7d"

namespace ExecError

/-- The label of the cause. -/
def name : ExecError → String
  | unknownFunction _ => "UnknownFunction"
  | unacceptedToken _ => "UnacceptedToken"
  | argumentCount _ _ => "ArgumentCount"
  | argumentType _ _ _ => "ArgumentType"
  | argumentTooLong _ _ _ => "ArgumentTooLong"
  | trap _ cause => cause.name

def message : ExecError → String
  | unknownFunction id => s!"no public function with id {id}"
  | unacceptedToken token =>
    s!"contract does not accept deposits or withdrawals of {token.text}"
  | argumentCount expected found => s!"expected {expected} arguments, got {found}"
  | argumentType index expected found =>
    s!"argument {index}: expected {expected.name}, got {found.name}"
  | argumentTooLong index length bound =>
    s!"argument {index}: payload of {length} bytes exceeds {bound}"
  | trap position cause => cause.message position

def kind : ExecError → ErrorKind
  | unknownFunction _ => .assertion
  | unacceptedToken _ | argumentCount _ _ | argumentType _ _ _ | argumentTooLong _ _ _ =>
    .typeMismatch
  | trap _ cause => cause.kind

end ExecError

end ContractMachine
