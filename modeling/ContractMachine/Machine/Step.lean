import ContractMachine.Arithmetic.Basic
import ContractMachine.Machine.RegisterFile
import ContractMachine.State.WriteSet

/-! One step of the machine. An instruction reads registers, the state and the call, and answers
with a result for its register or with updates of the state; it never does both. Whatever fails
here is told the position of the instruction and names it in its error. -/

namespace ContractMachine

/-- Who signed a call, who made it, and when. An instruction that needs a missing part fails. -/
structure Context where
  signer : Option Address := none
  caller : Option Address := none
  timestamp : Option Int64 := none
  deriving DecidableEq

namespace Context

/-- A call that one account signs and makes. -/
def signedBy (account : Address) : Context := { signer := some account, caller := some account }

def party? (c : Context) : Party → Option Address
  | .signer => c.signer
  | .caller => c.caller

def party (c : Context) (p : Party) (position : Nat) : Except ExecError Address :=
  match c.party? p with
  | some a => .ok a
  | none => .error (.trap position (.missingParty p))

end Context

/-- What stays the same during a call. -/
structure Env where
  contract : Contract
  context : Context

namespace Env

def stateVar (env : Env) (index : SlotIndex) (position : Nat) : Except ExecError VarDecl :=
  match env.contract.stateVar? index with
  | some d => .ok d
  | none => .error (.trap position (.undeclaredVar index))

def stateMap (env : Env) (index : SlotIndex) (position : Nat) : Except ExecError MapDecl :=
  match env.contract.stateMap? index with
  | some d => .ok d
  | none => .error (.trap position (.undeclaredMap index))

end Env

/-- What an instruction does. -/
inductive Effect where
  | result (dest : Register) (value : Value)
  | updates (updates : List Update)
  deriving DecidableEq

namespace Effect

/-- A passed assertion. -/
def nothing : Effect := updates []

/-- The updates of a ledger operation that succeeds. -/
def ofLedger {α : Type} (o : LedgerOutcome α) (position : Nat) : Except ExecError Effect :=
  match o.answer with
  | .ok _ => .ok (updates o.updates)
  | .error e => .error (.trap position (.token e))

end Effect

/-- The error that an arithmetic fault becomes. -/
def Fault.error (op : Opcode) (position : Nat) : Fault → ExecError
  | overflow => .trap position .overflow
  | divisionByZero => .trap position .divisionByZero
  | negativeSqrt => .trap position .negativeSqrt
  | mismatch expected found => .trap position (.typeMismatch expected found)
  | unsupported found => .trap position (.invalidOperand op found)

def Fault.lift {α : Type} (op : Opcode) (position : Nat) : Except Fault α → Except ExecError α
  | .ok a => .ok a
  | .error f => .error (f.error op position)

namespace Value

/-- The stored value, or the zero of its type where nothing is stored. -/
def orZero (stored : Option Value) (type : DataType) (position : Nat) : Except ExecError Value :=
  match stored with
  | some v => .ok v
  | none =>
    match zero? type with
    | some v => .ok v
    | none => .error (.trap position (.noDefaultValue type))

/-- Move a stored number by a positive delta. It may not fall below zero. -/
def move (op : Opcode) (direction : Direction) (current delta : Value) (position : Nat) :
    Except ExecError Value := do
  match delta.sign? with
  | some .gt => pure ()
  | some _ => throw (.trap position .nonPositiveDelta)
  | none => throw (.trap position (.invalidOperand op delta.type))
  let next ← Fault.lift op position (binary direction.op current delta)
  if direction = .minus ∧ next.sign? = some .lt then throw (.trap position .underflow)
  else return next

end Value

/-- The index of the last token, as a 32-bit number. -/
def View.lastTokenIndex (v : View) (position : Nat) : Except ExecError Int32 :=
  if v.tokenCount = 0 then .error (.trap position .noTokens)
  else
    match int32? (Int.ofNat (v.tokenCount.toNat - 1)) with
    | some n => .ok n
    | none => .error (.trap position .overflow)

namespace Instruction

/-- What an instruction does, or why it fails. Operands are fetched in a fixed order, so the
first that is wrong decides. -/
def eval (env : Env) (position : Nat) (view : View) (r : RegisterFile) (i : Instruction) :
    Except ExecError Effect :=
  match i with
  | loadParty party dest => do
    let a ← env.context.party party position
    return .result dest (.address a)
  | loadTimestamp dest =>
    match env.context.timestamp with
    | some now => return .result dest (.timestamp now)
    | none => throw (.trap position .missingTimestamp)
  | loadLastTokenIndex dest => do
    let last ← view.lastTokenIndex position
    return .result dest (.int32 last)
  | assertParty party account => do
    let a ← r.getAccount i.opcode account position
    let expected ← env.context.party party position
    if a = expected then return .nothing else throw (.trap position (.notParty party))
  | assertTrue cond => do
    if ← r.getBool cond position then return .nothing else throw (.trap position .assertionFailed)
  | assertPermitted cond => do
    if ← r.getBool cond position then return .nothing else throw (.trap position .notPermitted)
  | assertEqual a b => do
    let va ← r.get a position
    let vb ← r.get b position
    if va = vb then return .nothing else throw (.trap position .notEqual)
  | assertNotExpired now deadline => do
    let now ← r.getTimestamp now position
    let deadline ← r.getTimestamp deadline position
    if now.toInt ≤ deadline.toInt then return .nothing
    else throw (.trap position (.deadlineExceeded now deadline))
  | constant value dest => return .result dest value
  | binary op a b dest => do
    let va ← r.get a position
    let vb ← r.get b position
    let v ← Fault.lift i.opcode position (Value.binary op va vb)
    return .result dest v
  | sqrt a dest => do
    let n ← r.getBigInteger a position
    let root ← Fault.lift i.opcode position (sqrtInt n)
    return .result dest (.bigInteger root)
  | convert value target dest => do
    let type ← r.getDataType target position
    let v ← r.get value position
    match v.convert type with
    | .ok w => return .result dest w
    | .error e => throw (.trap position (.conversion e))
  | not a dest => do
    let b ← r.getBool a position
    return .result dest (.boolean (!b))
  | compare relation a b dest => do
    let va ← r.get a position
    let vb ← r.get b position
    let order ← Fault.lift i.opcode position (Value.order va vb)
    return .result dest (.boolean (relation.test order))
  | setVar var value => do
    let slot ← env.stateVar var position
    let v ← r.getTyped slot.type value position
    return .updates [.var var v]
  | getVar var dest => do
    let _ ← env.stateVar var position
    match view.var var with
    | some v => return .result dest v
    | none => throw (.trap position (.unsetVar var))
  | getVarOrZero var dest => do
    let slot ← env.stateVar var position
    let v ← Value.orZero (view.var var) slot.type position
    return .result dest v
  | moveVar direction var value => do
    let slot ← env.stateVar var position
    let delta ← r.getTyped slot.type value position
    let current ← Value.orZero (view.var var) slot.type position
    let next ← Value.move i.opcode direction current delta position
    return .updates [.var var next]
  | setEntry map key value => do
    let slot ← env.stateMap map position
    let k ← r.getTyped slot.key key position
    let v ← r.getTyped slot.value value position
    return .updates [.entry map k v]
  | moveEntry direction map key value => do
    let slot ← env.stateMap map position
    let k ← r.getTyped slot.key key position
    let delta ← r.getTyped slot.value value position
    let current ← Value.orZero (view.entry map k) slot.value position
    let next ← Value.move i.opcode direction current delta position
    return .updates [.entry map k next]
  | getEntry map key dest => do
    let slot ← env.stateMap map position
    let k ← r.getTyped slot.key key position
    match view.entry map k with
    | some v => return .result dest v
    | none => throw (.trap position (.unsetEntry map))
  | getEntryOrZero map key dest => do
    let slot ← env.stateMap map position
    let k ← r.getTyped slot.key key position
    let v ← Value.orZero (view.entry map k) slot.value position
    return .result dest v
  | newToken max unit description => do
    let max ← r.getAmount max position
    let unit ← r.getAmount unit position
    let description ← r.getText description position
    Effect.ofLedger (view.newToken max unit description) position
  | deposit token amount holder => do
    let token ← r.getInt32 token position
    let amount ← r.getAmount amount position
    let holder ← r.getAccount i.opcode holder position
    Effect.ofLedger (view.deposit token.toInt holder amount) position
  | transfer source token amount target => do
    let source ← r.getAccount i.opcode source position
    let token ← r.getInt32 token position
    let amount ← r.getAmount amount position
    let target ← r.getAccount i.opcode target position
    Effect.ofLedger (view.transfer token.toInt source target amount) position
  | balance token holder dest => do
    let token ← r.getInt32 token position
    let holder ← r.getAccount i.opcode holder position
    match view.balanceOf token.toInt holder with
    | .ok amount => return .result dest (.amount amount)
    | .error e => throw (.trap position (.token e))

end Instruction

end ContractMachine
