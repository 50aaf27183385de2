import ContractMachine.Machine.Run
import ContractMachine.Validation.Valid

/-! Deployed contracts. A call commits all of its writes or none; which trigger a deposit or
withdrawal runs is decided by the token id that its state variable holds. -/

namespace ContractMachine

/-- Why a deployment fails. -/
inductive DeployError where
  | invalid (defects : List Defect)
  | failed (error : ExecError)

namespace DeployError

def message : DeployError → String
  | invalid defects => s!"contract rejected with {defects.length} build errors"
  | failed error => error.message

def kind : DeployError → ErrorKind
  | invalid _ => .build
  | failed error => error.kind

end DeployError

/-- A valid contract and its store. -/
structure Deployment (σ : Type) where
  contract : ValidContract
  store : σ

namespace Deployment

variable {σ : Type} [Storage σ]

/-- Run a function of the contract; a failure leaves the deployment as it is. -/
def call (d : Deployment σ) (f : Function) (context : Context) (args : List Value) :
    Except ExecError (Deployment σ) :=
  match f.call ⟨d.contract.contract, context⟩ d.contract.limits.registerCapacity d.store args with
  | .ok (_, store) => .ok { d with store }
  | .error e => .error e

/-- Deploy a valid contract by running its init trigger. -/
def deploy (v : ValidContract) (store : σ) (context : Context) (args : List Value) :
    Except ExecError (Deployment σ) :=
  call ⟨v, store⟩ v.initTrigger context args

/-- Decode, validate and deploy bytecode. -/
def deployBytecode (bytes : Bytes) (store : σ) (context : Context) (args : List Value) :
    Except DeployError (Deployment σ) :=
  match ValidContract.ofBytecode bytes with
  | .error defects => .error (.invalid defects)
  | .ok v =>
    match deploy v store context args with
    | .ok d => .ok d
    | .error e => .error (.failed e)

/-- Call the public function with this id. -/
def invoke (d : Deployment σ) (id : FunctionId) (context : Context) (args : List Value) :
    Except ExecError (Deployment σ) :=
  match d.contract.function? id with
  | some f => d.call f context args
  | none => .error (.unknownFunction id)

/-- The first trigger whose kind watches a variable that holds this token. -/
def tokenTrigger? (d : Deployment σ) (watched : FunctionKind → Option SlotIndex) (token : TokenId) :
    Option Function :=
  d.contract.contract.triggers.find? fun f =>
    match watched f.kind with
    | some var => (Storage.view d.store).var var == some (.tokenId token)
    | none => false

def runTokenTrigger (d : Deployment σ) (watched : FunctionKind → Option SlotIndex)
    (token : TokenId) (account : Address) (amount : Int64) (context : Context) :
    Except ExecError (Deployment σ) :=
  match d.tokenTrigger? watched token with
  | some f => d.call f context [.address account, .amount amount]
  | none => .error (.unacceptedToken token)

/-- Record that an account paid an amount of a token into the contract. -/
def deposit (d : Deployment σ) (token : TokenId) (account : Address) (amount : Int64)
    (context : Context) : Except ExecError (Deployment σ) :=
  d.runTokenTrigger (fun | .onDeposit var => some var | _ => none) token account amount context

/-- Record that an account took an amount of a token out of the contract. -/
def withdraw (d : Deployment σ) (token : TokenId) (account : Address) (amount : Int64)
    (context : Context) : Except ExecError (Deployment σ) :=
  d.runTokenTrigger (fun | .onWithdraw var => some var | _ => none) token account amount context

end Deployment

end ContractMachine
