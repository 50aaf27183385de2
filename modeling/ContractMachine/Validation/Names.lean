import ContractMachine.Validation.Defect
import ContractMachine.Wire.Contract

/-! Names have no effect on execution, but where there are names they fit the contract. -/

namespace ContractMachine

namespace Signature

/-- Each name with what it names. -/
def names (s : Signature) : List (Part × String) :=
  (.function, s.name) :: s.params.map (Part.parameter, ·) ++ s.returns.map (Part.returnValue, ·)

def mismatches (role : Role) (f : Function) (s : Signature) : List Defect :=
  (if f.params.length = s.params.length then []
    else [.signatureMismatch role f.id .parameter f.params.length s.params.length]) ++
  (if f.returns.length = s.returns.length then []
    else [.signatureMismatch role f.id .returnValue f.returns.length s.returns.length])

end Signature

namespace Textual

def names (t : Textual) : List (Part × String) :=
  (t.triggers ++ t.functions).flatMap Signature.names ++ t.stateVars.map (Part.stateVar, ·) ++
    t.stateMaps.map (Part.stateMap, ·)

def countDefects (part : Part) (expected found : Nat) : List Defect :=
  if expected = found then [] else [.textualCountMismatch part expected found]

def nameDefects (t : Textual) : List Defect :=
  t.names.flatMap fun (part, name) =>
    if Text.size name ≤ maxName then [] else [.nameTooLong part (Text.size name) maxName]

end Textual

namespace Contract

def signatureDefects (role : Role) (functions : List Function) (signatures : List Signature) :
    List Defect :=
  (functions.zip signatures).flatMap fun (f, s) => s.mismatches role f

def textualDefects (c : Contract) : List Defect :=
  match c.textual with
  | none => []
  | some t =>
    Textual.countDefects .trigger c.triggers.length t.triggers.length ++
    Textual.countDefects .function c.functions.length t.functions.length ++
    Textual.countDefects .stateVar c.stateVars.length t.stateVars.length ++
    Textual.countDefects .stateMap c.stateMaps.length t.stateMaps.length ++
    signatureDefects .trigger c.triggers t.triggers ++
    signatureDefects .function c.functions t.functions ++
    t.nameDefects

end Contract

end ContractMachine
