import ContractMachine.Contracts.Assembly
import ContractMachine.Draft

/-! Tokens of a single unit whose transfers a list of accounts controls. A whitelist asks that
both parties be listed, a blacklist that neither be. -/

namespace ContractMachine.AccessList

open Assemble

inductive Policy where
  | whitelist | blacklist
  deriving DecidableEq, Repr

/-! ### Slots and functions -/

/-- The account that issues tokens and keeps the list. -/
def issuerVar : SlotIndex := 0

/-- The account that deployed the contract; it may replace the issuer. -/
def makerVar : SlotIndex := 1

/-- Whether an address is listed. -/
def listedMap : SlotIndex := 0

def supersedeId : FunctionId := 0

def issueId : FunctionId := 1

def updateListId : FunctionId := 2

def sendId : FunctionId := 3

def init : Function :=
  .trigger 0 .onInit [] <| body 0 do
    let account ← signer
    emit (.setVar issuerVar account)
    emit (.setVar makerVar account)

/-- Replace the issuer; only the maker signs for that. -/
def supersede : Function :=
  .callable supersedeId [.address] <| body 1 do
    let maker ← getVar makerVar
    emit (.assertParty .signer maker)
    emit (.setVar issuerVar 0)

/-- Define a token of one unit and give it to the issuer. -/
def issue : Function :=
  .callable issueId [.shortText] <| body 1 do
    let issuer ← getVar issuerVar
    emit (.assertParty .caller issuer)
    let one ← amount 1
    emit (.newToken one one 0)
    let token ← lastToken
    emit (.deposit token one issuer)

/-- Set the flag of an account. -/
def updateList : Function :=
  .callable updateListId [.address, .boolean] <| body 2 do
    let issuer ← getVar issuerVar
    emit (.assertParty .caller issuer)
    emit (.setEntry listedMap 0 1)

/-- The register that tells whether the policy lets an account take part. -/
def allowed (policy : Policy) (listed : Register) : Assemble Register :=
  match policy with
  | .whitelist => pure listed
  | .blacklist => not listed

/-- Move one unit from the caller to a recipient, if the list permits both. -/
def send (policy : Policy) : Function :=
  .callable sendId [.address, .int32] <| body 2 do
    let account ← caller
    let accountListed ← getEntryOrZero listedMap account
    let recipientListed ← getEntryOrZero listedMap 0
    let accountAllowed ← allowed policy accountListed
    let recipientAllowed ← allowed policy recipientListed
    emit (.assertPermitted accountAllowed)
    emit (.assertPermitted recipientAllowed)
    let one ← amount 1
    emit (.transfer account 1 one 0)

def contract (policy : Policy) : Contract :=
  (({ version := 1 } : Draft)
    |>.addVar "issuer" issuerVar .address
    |>.addVar "maker" makerVar .address
    |>.addMap "listed" listedMap .address .boolean
    |>.addTrigger ⟨"init", [], []⟩ init
    |>.addFunction ⟨"supersede", ["newIssuer"], []⟩ supersede
    |>.addFunction ⟨"issue", ["tokenDescription"], []⟩ issue
    |>.addFunction ⟨"updateList", ["account", "flag"], []⟩ updateList
    |>.addFunction ⟨"send", ["recipient", "tokenIndex"], []⟩ (send policy)).toContract

/-- Both policies give valid contracts. -/
def valid (policy : Policy) : ValidContract where
  contract := contract policy
  limits := {}
  accepted := by cases policy <;> decide +kernel

end ContractMachine.AccessList
