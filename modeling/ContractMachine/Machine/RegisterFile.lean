import ContractMachine.Machine.Error

/-! Registers of one call. A register is unset until it is written. -/

namespace ContractMachine

/-- The set registers; only those below the capacity can be. -/
structure RegisterFile where
  capacity : Nat
  cells : OrderedMap Register Value := ∅

namespace RegisterFile

/-- Unset every register. -/
def clear (r : RegisterFile) : RegisterFile := { r with cells := ∅ }

def set (r : RegisterFile) (i : Register) (v : Value) (position : Nat) :
    Except ExecError RegisterFile :=
  if i.toNat < r.capacity then .ok { r with cells := r.cells.insert i v }
  else .error (.trap position (.registerOutOfRange i))

def get (r : RegisterFile) (i : Register) (position : Nat) : Except ExecError Value :=
  if i.toNat < r.capacity then
    match r.cells.get? i with
    | some v => .ok v
    | none => .error (.trap position (.undefinedRegister i))
  else .error (.trap position (.registerOutOfRange i))

/-- A value of a given type. -/
def getTyped (r : RegisterFile) (type : DataType) (i : Register) (position : Nat) :
    Except ExecError Value := do
  let v ← r.get i position
  if v.type = type then return v else throw (.trap position (.typeMismatch type v.type))

/-- A value of another type than the one a reader takes. -/
def mismatch (expected : DataType) (found : Value) (position : Nat) : ExecError :=
  .trap position (.typeMismatch expected found.type)

def getAmount (r : RegisterFile) (i : Register) (position : Nat) : Except ExecError Int64 := do
  match ← r.get i position with
  | .amount n => return n
  | v => throw (mismatch .amount v position)

def getInt32 (r : RegisterFile) (i : Register) (position : Nat) : Except ExecError Int32 := do
  match ← r.get i position with
  | .int32 n => return n
  | v => throw (mismatch .int32 v position)

def getBool (r : RegisterFile) (i : Register) (position : Nat) : Except ExecError Bool := do
  match ← r.get i position with
  | .boolean b => return b
  | v => throw (mismatch .boolean v position)

def getTimestamp (r : RegisterFile) (i : Register) (position : Nat) : Except ExecError Int64 := do
  match ← r.get i position with
  | .timestamp n => return n
  | v => throw (mismatch .timestamp v position)

def getText (r : RegisterFile) (i : Register) (position : Nat) : Except ExecError String := do
  match ← r.get i position with
  | .shortText s => return s
  | v => throw (mismatch .shortText v position)

def getBigInteger (r : RegisterFile) (i : Register) (position : Nat) : Except ExecError Int := do
  match ← r.get i position with
  | .bigInteger n => return n
  | v => throw (mismatch .bigInteger v position)

def getDataType (r : RegisterFile) (i : Register) (position : Nat) : Except ExecError DataType := do
  match ← r.get i position with
  | .dataType t => return t
  | v => throw (mismatch .dataType v position)

/-- The account in an address or account register, for an operation that takes either. -/
def getAccount (r : RegisterFile) (op : Opcode) (i : Register) (position : Nat) :
    Except ExecError Address := do
  let v ← r.get i position
  match v.account? with
  | some a => return a
  | none => throw (.trap position (.invalidOperand op v.type))

end RegisterFile

end ContractMachine
