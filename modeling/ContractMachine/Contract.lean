import ContractMachine.Instruction

/-! Contract descriptors: straight-line functions with declared interfaces, the state slots they
use, and optional names for people to read. -/

namespace ContractMachine

abbrev FunctionId := UInt16

/-- What makes a function run. -/
inductive FunctionKind where
  /-- A call by its id. -/
  | callable
  /-- Deployment. -/
  | onInit
  /-- A deposit of the token whose id the state variable holds. -/
  | onDeposit (tokenVar : SlotIndex)
  /-- A withdrawal of the token whose id the state variable holds. -/
  | onWithdraw (tokenVar : SlotIndex)
  deriving DecidableEq

def FunctionKind.isTrigger : FunctionKind → Bool
  | callable => false
  | _ => true

/-- The state variable that a deposit or withdrawal is matched against. -/
def FunctionKind.tokenVar? : FunctionKind → Option SlotIndex
  | onDeposit var | onWithdraw var => some var
  | _ => none

structure Function where
  id : FunctionId
  kind : FunctionKind
  returns : List DataType
  /-- Arguments are put into the first registers, in this order. -/
  params : List DataType
  code : List Instruction
  deriving DecidableEq

structure VarDecl where
  index : SlotIndex
  type : DataType
  deriving DecidableEq

structure MapDecl where
  index : SlotIndex
  key : DataType
  value : DataType
  deriving DecidableEq

/-- Names of a function, its parameters and its results. -/
structure Signature where
  name : String
  params : List String
  returns : List String
  deriving DecidableEq

structure Textual where
  triggers : List Signature
  functions : List Signature
  stateVars : List String
  stateMaps : List String
  deriving DecidableEq

structure Contract where
  language : String
  version : Int32
  triggers : List Function
  functions : List Function
  stateVars : List VarDecl
  stateMaps : List MapDecl
  textual : Option Textual
  deriving DecidableEq

namespace Contract

/-- The first declaration of a state variable with this index. -/
def stateVar? (c : Contract) (index : SlotIndex) : Option VarDecl :=
  c.stateVars.find? fun d => d.index == index

/-- The first declaration of a state map with this index. -/
def stateMap? (c : Contract) (index : SlotIndex) : Option MapDecl :=
  c.stateMaps.find? fun d => d.index == index

end Contract

/-- The language that contracts declare. -/
def languageId : String := "ledgervm"

end ContractMachine
