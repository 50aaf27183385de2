import ContractMachine.Validation.Defect

/-! The language a contract declares, its version, and what that version lacks. -/

namespace ContractMachine

/-- Language versions in use. -/
def supportedVersions : List Int32 := [1, 2]

/-- The feature that an instruction needs, and the first version that has it. -/
def Instruction.feature : Instruction → Feature × Int32
  | constant (.bigInteger _) _ => (.bigIntegerLiteral, 2)
  | i => (.operation i.opcode, i.opcode.minVersion)

def Instruction.versionFlaws (version : Int32) (i : Instruction) : List Flaw :=
  let (feature, required) := i.feature
  if required ≤ version then [] else [.requiresVersion feature required version]

namespace Contract

/-- Against an unknown version no instruction is checked. -/
def versionDefects (c : Contract) : List Defect :=
  if c.version ∈ supportedVersions then
    c.roles.flatMap fun (role, f) => bodyDefects role f (Instruction.versionFlaws c.version)
  else [.unsupportedVersion c.version]

def headerDefects (c : Contract) : List Defect :=
  (if c.language = languageId then [] else [.unsupportedLanguage c.language]) ++ c.versionDefects

end Contract

end ContractMachine
