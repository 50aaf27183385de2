import ContractMachine.Contract

/-! Assembly of function bodies. Every result goes into a fresh register, so a body reads as a
chain of single assignments. -/

namespace ContractMachine

/-- A body under assembly. -/
structure Routine where
  /-- The next fresh register. -/
  next : Register
  code : List Instruction := []
  /-- The register that holds the type of big integers, once it is loaded. -/
  bigIntegerType : Option Register := none
  /-- The register that holds the type of amounts, once it is loaded. -/
  amountType : Option Register := none

/-- A part of a body: what it adds to the routine, and its result. -/
def Assemble (α : Type) : Type := Routine → α × Routine

namespace Assemble

instance : Monad Assemble where
  pure a := fun r => (a, r)
  bind a f := fun r =>
    match a r with
    | (x, next) => f x next

instance : MonadStateOf Routine Assemble where
  get := fun r => (r, r)
  set r := fun _ => ((), r)
  modifyGet f := f

def emit (i : Instruction) : Assemble Unit :=
  modify fun r => { r with code := r.code ++ [i] }

/-- A register that no instruction has used; the last register is given out again and again. -/
def fresh : Assemble Register :=
  modifyGet fun r => (r.next, { r with next := if r.next = 255 then 255 else r.next + 1 })

/-- Emit an instruction that leaves its result in a fresh register. -/
def result (make : Register → Instruction) : Assemble Register := do
  let dest ← fresh
  emit (make dest)
  return dest

/-- The body that starts with its parameters in the first registers. -/
def body (params : Register) (a : Assemble Unit) : List Instruction :=
  match a { next := params } with
  | (_, r) => r.code

def signer : Assemble Register := result (.loadParty .signer)

def caller : Assemble Register := result (.loadParty .caller)

def lastToken : Assemble Register := result .loadLastTokenIndex

def constant (v : Value) : Assemble Register := result (.constant v)

def amount (n : Int64) : Assemble Register := constant (.amount n)

def bigInteger (n : Int) : Assemble Register := constant (.bigInteger n)

def binary (op : BinaryOp) (a b : Register) : Assemble Register := result (.binary op a b)

def sqrt (a : Register) : Assemble Register := result (.sqrt a)

def not (a : Register) : Assemble Register := result (.not a)

/-- Widen an amount. The type is loaded once for a body. -/
def widen (a : Register) : Assemble Register := do
  let target ←
    match (← get).bigIntegerType with
    | some r => pure r
    | none => do
      let r ← constant (.dataType .bigInteger)
      modify fun s => { s with bigIntegerType := some r }
      pure r
  result (.convert a target)

/-- Narrow a big integer to an amount. The type is loaded once for a body. -/
def narrow (a : Register) : Assemble Register := do
  let target ←
    match (← get).amountType with
    | some r => pure r
    | none => do
      let r ← constant (.dataType .amount)
      modify fun s => { s with amountType := some r }
      pure r
  result (.convert a target)

def assertNotExpired (deadline : Register) : Assemble Unit := do
  let now ← result .loadTimestamp
  emit (.assertNotExpired now deadline)

/-- Require that two numbers stand in a relation. -/
def require (relation : Relation) (a b : Register) : Assemble Unit := do
  let cond ← result (.compare relation a b)
  emit (.assertTrue cond)

def getVar (var : SlotIndex) : Assemble Register := result (.getVar var)

def getEntryOrZero (map : SlotIndex) (key : Register) : Assemble Register :=
  result (.getEntryOrZero map key)

end Assemble

/-- A function that is called by its id. -/
def Function.callable (id : FunctionId) (params : List DataType) (code : List Instruction) :
    Function :=
  { id, kind := .callable, returns := [], params, code }

def Function.trigger (id : FunctionId) (kind : FunctionKind) (params : List DataType)
    (code : List Instruction) : Function :=
  { id, kind, returns := [], params, code }

end ContractMachine
