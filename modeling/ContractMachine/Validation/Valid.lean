import ContractMachine.Digest.Blake3
import ContractMachine.Validation.Bounds
import ContractMachine.Validation.Header
import ContractMachine.Validation.Names
import ContractMachine.Validation.Structure
import ContractMachine.Validation.Typing

/-! Valid contracts: those in which no check finds a defect. Types are checked only where slots
and registers are in order. -/

namespace ContractMachine

namespace Contract

/-- Every defect, in the order of the checks. -/
def defects (c : Contract) (l : Limits) : List Defect :=
  let placement := c.structureDefects ++ c.boundsDefects l
  c.limitDefects l ++ c.headerDefects ++ placement ++
    (if placement.isEmpty then c.typeDefects else []) ++ c.textualDefects

/-- The beginning of the hash of the bytecode. -/
def id (c : Contract) : ContractId := .ofBytecode c.encode

end Contract

/-- A contract without defects under its limits. -/
structure ValidContract where
  contract : Contract
  limits : Limits
  accepted : contract.defects limits = []

namespace ValidContract

/-- Accept a contract, or give every defect. -/
def check (c : Contract) (l : Limits) : Except (List Defect) ValidContract :=
  if h : c.defects l = [] then .ok ⟨c, l, h⟩ else .error (c.defects l)

/-- Accept bytecode under the default limits. -/
def ofBytecode (bytes : Bytes) : Except (List Defect) ValidContract :=
  match Contract.decode bytes with
  | .ok c => check c {}
  | .error e => .error [.undecodable e]

/-- The first public function with this id. -/
def function? (v : ValidContract) (id : FunctionId) : Option Function :=
  v.contract.functions.find? fun f => f.id == id

theorem structureDefects_eq_nil (v : ValidContract) : v.contract.structureDefects = [] := by
  have h := v.accepted
  simp only [Contract.defects, List.append_eq_nil_iff] at h
  exact h.1.1.2.1

/-- A valid contract has exactly one init trigger. -/
theorem exists_initTriggers_eq (v : ValidContract) : ∃ f, v.contract.initTriggers = [f] := by
  have h := v.structureDefects_eq_nil
  simp only [Contract.structureDefects, List.append_eq_nil_iff, Contract.initDefects] at h
  have h := h.1.1.2
  split at h
  · cases h
  · exact ⟨_, by assumption⟩
  · cases h

/-- The trigger that runs at deployment. -/
def initTrigger (v : ValidContract) : Function :=
  v.contract.initTriggers.head fun h => by
    obtain ⟨f, hf⟩ := v.exists_initTriggers_eq
    simp [hf] at h

end ValidContract

end ContractMachine
