import ContractMachine.Validation.Limits
import ContractMachine.Validation.Structure

/-! Every slot that is used is declared, and every register is one of the register file. -/

namespace ContractMachine

def Instruction.boundsFlaws (c : Contract) (capacity : Nat) (i : Instruction) : List Flaw :=
  (match i.stateVar? with
    | some index => if c.varTable.contains index then [] else [.undeclaredVar index]
    | none => []) ++
  (match i.stateMap? with
    | some index => if c.mapTable.contains index then [] else [.undeclaredMap index]
    | none => []) ++
  (i.sources ++ i.dest?.toList).flatMap fun register =>
    if register.toNat < capacity then [] else [.registerOutOfRange register capacity]

namespace Contract

/-- Whether the state variable is declared to hold a token id. -/
def isTokenVar (c : Contract) (index : SlotIndex) : Bool :=
  (c.varTable.get? index).any fun d => d.type == .tokenId

def tokenVarDefects (c : Contract) (f : Function) : List Defect :=
  match f.kind.tokenVar? with
  | some index => if c.isTokenVar index then [] else [.invalidTokenVar f.id index]
  | none => []

def boundsDefects (c : Contract) (l : Limits) : List Defect :=
  c.roles.flatMap fun (role, f) =>
    c.tokenVarDefects f ++ bodyDefects role f (Instruction.boundsFlaws c l.registerCapacity)

end Contract

end ContractMachine
