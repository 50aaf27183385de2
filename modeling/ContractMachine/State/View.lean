import ContractMachine.Value
import ContractMachine.Instruction

/-! What can be read of a contract's state, and the elementary updates of it. -/

namespace ContractMachine

/-- A token that a contract has defined. -/
structure Token where
  maxSupply : Int64
  unit : Int64
  description : String
  /-- Units deposited so far. -/
  issued : Int64
  deriving DecidableEq

/-- Everything that can be read of a state. -/
structure View where
  var : SlotIndex → Option Value
  entry : SlotIndex → Value → Option Value
  token : TokenIndex → Option Token
  tokenCount : TokenIndex
  balance : TokenIndex → Address → Int64

/-- One elementary write. -/
inductive Update where
  | var (index : SlotIndex) (value : Value)
  | entry (index : SlotIndex) (key value : Value)
  | token (index : TokenIndex) (token : Token)
  | tokenCount (count : TokenIndex)
  | balance (index : TokenIndex) (holder : Address) (amount : Int64)
  deriving DecidableEq

namespace View

/-- The view after a write. -/
def update (v : View) : Update → View
  | .var index value => { v with var := fun i => if i = index then some value else v.var i }
  | .entry index key value =>
    { v with
      entry := fun i k => if i = index ∧ k = key then some value else v.entry i k }
  | .token index token =>
    { v with token := fun i => if i = index then some token else v.token i }
  | .tokenCount count => { v with tokenCount := count }
  | .balance index holder amount =>
    { v with
      balance := fun i a => if i = index ∧ a = holder then amount else v.balance i a }

end View

end ContractMachine
