import ContractMachine.Opcode
import ContractMachine.Value

/-! Instructions over registers and state slots. Operations that differ only in the quantity they
load, the relation they test or the direction they move a number share a constructor. -/

namespace ContractMachine

abbrev Register := UInt8

abbrev SlotIndex := UInt8

/-- The two accounts that a call names. -/
inductive Party where
  | signer | caller
  deriving DecidableEq, Repr

inductive BinaryOp where
  | add | minus | multiply | divide | min | max
  deriving DecidableEq, Repr

inductive Relation where
  | greater | greaterEqual
  deriving DecidableEq, Repr

/-- Direction in which a stored number moves. -/
inductive Direction where
  | add | minus
  deriving DecidableEq, Repr

inductive Instruction where
  | loadParty (party : Party) (dest : Register)
  | loadTimestamp (dest : Register)
  | loadLastTokenIndex (dest : Register)
  | assertParty (party : Party) (account : Register)
  | assertTrue (cond : Register)
  | assertPermitted (cond : Register)
  | assertEqual (a b : Register)
  | assertNotExpired (now deadline : Register)
  | constant (value : Value) (dest : Register)
  | binary (op : BinaryOp) (a b dest : Register)
  | sqrt (a dest : Register)
  | convert (value target dest : Register)
  | not (a dest : Register)
  | compare (relation : Relation) (a b dest : Register)
  | setVar (var : SlotIndex) (value : Register)
  | getVar (var : SlotIndex) (dest : Register)
  | getVarOrZero (var : SlotIndex) (dest : Register)
  | moveVar (direction : Direction) (var : SlotIndex) (value : Register)
  | setEntry (map : SlotIndex) (key value : Register)
  | moveEntry (direction : Direction) (map : SlotIndex) (key value : Register)
  | getEntry (map : SlotIndex) (key dest : Register)
  | getEntryOrZero (map : SlotIndex) (key dest : Register)
  | newToken (max unit description : Register)
  | deposit (token amount holder : Register)
  | transfer (source token amount target : Register)
  | balance (token holder dest : Register)
  deriving DecidableEq

def BinaryOp.opcode : BinaryOp → Opcode
  | add => .add
  | minus => .minus
  | multiply => .multiply
  | divide => .divide
  | min => .min
  | max => .max

def Relation.opcode : Relation → Opcode
  | greater => .greater
  | greaterEqual => .greaterEqual

/-- The arithmetic that a move applies to the stored number. -/
def Direction.op : Direction → BinaryOp
  | add => .add
  | minus => .minus

namespace Instruction

def opcode : Instruction → Opcode
  | loadParty .signer _ => .loadSigner
  | loadParty .caller _ => .loadCaller
  | loadTimestamp _ => .loadTimestamp
  | loadLastTokenIndex _ => .loadLastTokenIndex
  | assertParty .signer _ => .assertSigner
  | assertParty .caller _ => .assertCaller
  | assertTrue _ => .assertTrue
  | assertPermitted _ => .assertPermitted
  | assertEqual _ _ => .assertEqual
  | assertNotExpired _ _ => .assertNotExpired
  | constant _ _ => .constant
  | binary op _ _ _ => op.opcode
  | sqrt _ _ => .sqrt
  | convert _ _ _ => .convert
  | not _ _ => .not
  | compare relation _ _ _ => relation.opcode
  | setVar _ _ => .setVar
  | getVar _ _ => .getVar
  | getVarOrZero _ _ => .getVarOrZero
  | moveVar .add _ _ => .addVar
  | moveVar .minus _ _ => .minusVar
  | setEntry _ _ _ => .setEntry
  | moveEntry .add _ _ _ => .addEntry
  | moveEntry .minus _ _ _ => .minusEntry
  | getEntry _ _ _ => .getEntry
  | getEntryOrZero _ _ _ => .getEntryOrZero
  | newToken _ _ _ => .newToken
  | deposit _ _ _ => .deposit
  | transfer _ _ _ _ => .transfer
  | balance _ _ _ => .balance

/-- The register that receives the result. -/
def dest? : Instruction → Option Register
  | loadParty _ dest | loadTimestamp dest | loadLastTokenIndex dest | constant _ dest
  | binary _ _ _ dest | sqrt _ dest | convert _ _ dest | not _ dest | compare _ _ _ dest
  | getVar _ dest | getVarOrZero _ dest | getEntry _ _ dest | getEntryOrZero _ _ dest
  | balance _ _ dest => some dest
  | _ => none

/-- The registers read, in operand order. -/
def sources : Instruction → List Register
  | loadParty _ _ | loadTimestamp _ | loadLastTokenIndex _ | constant _ _ | getVar _ _
  | getVarOrZero _ _ => []
  | assertParty _ account => [account]
  | assertTrue cond | assertPermitted cond => [cond]
  | assertEqual a b => [a, b]
  | assertNotExpired now deadline => [now, deadline]
  | binary _ a b _ | compare _ a b _ => [a, b]
  | sqrt a _ | not a _ => [a]
  | convert value target _ => [value, target]
  | setVar _ value | moveVar _ _ value => [value]
  | setEntry _ key value | moveEntry _ _ key value => [key, value]
  | getEntry _ key _ | getEntryOrZero _ key _ => [key]
  | newToken max unit description => [max, unit, description]
  | deposit token amount holder => [token, amount, holder]
  | transfer source token amount target => [source, token, amount, target]
  | balance token holder _ => [token, holder]

/-- The state variable touched. -/
def stateVar? : Instruction → Option SlotIndex
  | setVar var _ | getVar var _ | getVarOrZero var _ | moveVar _ var _ => some var
  | _ => none

/-- The state map touched. -/
def stateMap? : Instruction → Option SlotIndex
  | setEntry map _ _ | moveEntry _ map _ _ | getEntry map _ _ | getEntryOrZero map _ _ => some map
  | _ => none

end Instruction

end ContractMachine
