import ContractMachine.ErrorKind
import ContractMachine.State.View

/-! Tokens are numbered in the order of their definition. A deposit issues new units up to the
maximal supply; a transfer moves units between holders. Amounts are positive. -/

namespace ContractMachine

inductive TokenError where
  | unknownToken (index : Int)
  | nonPositiveAmount (amount : Int64)
  | invalidDefinition (maxSupply unit : Int64)
  | supplyExceeded (amount issued maxSupply : Int64)
  | insufficientBalance (balance amount : Int64)
  | overflow
  deriving DecidableEq

namespace TokenError

/-- The label of the cause. -/
def name : TokenError → String
  | unknownToken _ => "UnknownToken"
  | nonPositiveAmount _ => "NonPositiveAmount"
  | invalidDefinition _ _ => "InvalidDefinition"
  | supplyExceeded _ _ _ => "SupplyExceeded"
  | insufficientBalance _ _ => "InsufficientBalance"
  | overflow => "Overflow"

def message : TokenError → String
  | unknownToken index => s!"unknown token index {index}"
  | nonPositiveAmount amount => s!"amount {amount} is not positive"
  | invalidDefinition maxSupply unit =>
    s!"invalid token definition: max supply {maxSupply}, unit {unit}"
  | supplyExceeded amount issued maxSupply =>
    s!"deposit of {amount} exceeds max supply {maxSupply} (issued {issued})"
  | insufficientBalance balance amount => s!"balance {balance} is less than {amount}"
  | overflow => "token balance overflow"

def kind : TokenError → ErrorKind
  | unknownToken _ => .uninitializedState
  | insufficientBalance _ _ => .insufficientBalance
  | _ => .arithmetic

end TokenError

/-- The answer of a ledger operation and the updates it makes. An operation that fails half-way
has made those before the failure. -/
structure LedgerOutcome (α : Type) where
  updates : List Update
  answer : Except TokenError α

namespace LedgerOutcome

/-- A failure that leaves the state as it is. -/
def refuse {α : Type} (e : TokenError) : LedgerOutcome α := ⟨[], .error e⟩

end LedgerOutcome

/-- The token index equal to `n`, if there is one. -/
def tokenIndex? (n : Int) : Option TokenIndex :=
  if 0 ≤ n ∧ n < 4294967296 then some (UInt32.ofNat n.toNat) else none

namespace View

/-- A defined token, by its index. -/
def knownToken (v : View) (index : Int) : Except TokenError (TokenIndex × Token) :=
  match tokenIndex? index with
  | none => .error (.unknownToken index)
  | some i =>
    match v.token i with
    | none => .error (.unknownToken index)
    | some token => .ok (i, token)

/-- Define a token under the next index. -/
def newToken (v : View) (maxSupply unit : Int64) (description : String) :
    LedgerOutcome TokenIndex :=
  if maxSupply.toInt ≤ 0 ∨ unit.toInt ≤ 0 then .refuse (.invalidDefinition maxSupply unit)
  else
    let index := v.tokenCount
    if index.toNat + 1 < 4294967296 then
      { updates := [.token index ⟨maxSupply, unit, description, 0⟩, .tokenCount (index + 1)]
        answer := .ok index }
    else .refuse .overflow

/-- Issue units of a token to a holder. -/
def deposit (v : View) (index : Int) (holder : Address) (amount : Int64) : LedgerOutcome Unit :=
  if amount.toInt ≤ 0 then .refuse (.nonPositiveAmount amount)
  else
    match v.knownToken index with
    | .error e => .refuse e
    | .ok (i, token) =>
      if token.issued.toInt + amount.toInt ≤ token.maxSupply.toInt then
        match int64? ((v.balance i holder).toInt + amount.toInt) with
        | some balance =>
          { updates :=
              [.token i { token with issued := token.issued + amount }, .balance i holder balance]
            answer := .ok () }
        | none => .refuse .overflow
      else .refuse (.supplyExceeded amount token.issued token.maxSupply)

/-- Move units of a token. The source is debited before the target is read, so a transfer to
oneself changes nothing; a target that overflows leaves the source debited. -/
def transfer (v : View) (index : Int) (source target : Address) (amount : Int64) :
    LedgerOutcome Unit :=
  if amount.toInt ≤ 0 then .refuse (.nonPositiveAmount amount)
  else
    match v.knownToken index with
    | .error e => .refuse e
    | .ok (i, _) =>
      let held := v.balance i source
      if held.toInt < amount.toInt then .refuse (.insufficientBalance held amount)
      else
        let debit := Update.balance i source (held - amount)
        match int64? (((v.update debit).balance i target).toInt + amount.toInt) with
        | some credited => ⟨[debit, .balance i target credited], .ok ()⟩
        | none => ⟨[debit], .error .overflow⟩

/-- The balance of a holder in a defined token. -/
def balanceOf (v : View) (index : Int) (holder : Address) : Except TokenError Int64 :=
  match v.knownToken index with
  | .error e => .error e
  | .ok (i, _) => .ok (v.balance i holder)

end View

end ContractMachine
