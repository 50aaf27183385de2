import ContractMachine.Contract
import ContractMachine.Text.Quoted
import ContractMachine.Wire.Error

/-! Defects that validation finds in a contract. A flaw concerns one instruction; a defect is a
flaw with its site, or concerns a whole function or the contract. -/

namespace ContractMachine

/-- The two lists of functions in a contract. -/
inductive Role where
  | trigger | function
  deriving DecidableEq, Repr

def Role.name : Role → String
  | trigger => "trigger"
  | function => "function"

/-- An instruction, by its position in the body of a function. -/
structure Site where
  role : Role
  function : FunctionId
  position : Nat
  deriving DecidableEq

def Site.text (s : Site) : String :=
  s!"{s.role.name} {s.function} at instruction {s.position}"

/-- What a language version may lack. -/
inductive Feature where
  | operation (op : Opcode)
  | bigIntegerLiteral
  deriving DecidableEq

def Feature.name : Feature → String
  | operation op => op.mnemonic
  | bigIntegerLiteral => "BigInteger literal"

inductive Flaw where
  | bigIntegerTooLong (length bound : Nat)
  | textTooLong (length bound : Nat)
  | requiresVersion (feature : Feature) (required version : Int32)
  | undeclaredVar (index : SlotIndex)
  | undeclaredMap (index : SlotIndex)
  | registerOutOfRange (register : Register) (capacity : Nat)
  | undefinedRegister (register : Register)
  | typeMismatch (expected found : DataType)
  | invalidOperand (op : Opcode) (found : DataType)
  | unsupportedConversion (source target : DataType)
  | noDefaultValue (type : DataType)
  deriving DecidableEq

/-- The label of the flaw. -/
def Flaw.name : Flaw → String
  | bigIntegerTooLong _ _ => "BigIntegerTooLong"
  | textTooLong _ _ => "TextTooLong"
  | requiresVersion _ _ _ => "RequiresVersion"
  | undeclaredVar _ => "UndeclaredStateVar"
  | undeclaredMap _ => "UndeclaredStateMap"
  | registerOutOfRange _ _ => "RegisterOutOfRange"
  | undefinedRegister _ => "UndefinedRegister"
  | typeMismatch _ _ => "TypeMismatch"
  | invalidOperand _ _ => "InvalidOperandType"
  | unsupportedConversion _ _ => "UnsupportedConversion"
  | noDefaultValue _ => "NoDefaultValue"

def Flaw.message (site : Site) : Flaw → String
  | bigIntegerTooLong length bound =>
    s!"big integer literal of {length} bytes in {site.text} (max {bound})"
  | textTooLong length bound =>
    s!"short text literal of {length} bytes in {site.text} (max {bound})"
  | requiresVersion feature required version =>
    s!"{feature.name} in {site.text} requires version {required}, contract is version {version}"
  | undeclaredVar index => s!"undeclared state var {index} in {site.text}"
  | undeclaredMap index => s!"undeclared state map {index} in {site.text}"
  | registerOutOfRange register capacity =>
    s!"register {register} out of range in {site.text} (capacity {capacity})"
  | undefinedRegister register => s!"register {register} read before write in {site.text}"
  | typeMismatch expected found =>
    s!"type mismatch in {site.text}: expected {expected.name}, found {found.name}"
  | invalidOperand op found =>
    s!"{found.name} operand is not valid for {op.mnemonic} in {site.text}"
  | unsupportedConversion source target =>
    s!"no conversion from {source.name} to {target.name} in {site.text}"
  | noDefaultValue type => s!"{type.name} has no default value, used by {site.text}"

/-- The limits that a contract is validated against. -/
inductive LimitName where
  | registerCapacity | maxInstructions | maxFunctions | maxShortText
  deriving DecidableEq

def LimitName.text : LimitName → String
  | registerCapacity => "register_capacity"
  | maxInstructions => "max_instructions"
  | maxFunctions => "max_functions"
  | maxShortText => "max_short_text"

/-- Parts of a contract that the textual description names. -/
inductive Part where
  | trigger | function | stateVar | stateMap | parameter | returnValue
  deriving DecidableEq

def Part.name : Part → String
  | trigger => "trigger"
  | function => "function"
  | stateVar => "state var"
  | stateMap => "state map"
  | parameter => "parameter"
  | returnValue => "return value"

inductive Defect where
  | undecodable (error : DecodeError)
  | limitAboveFormat (limit : LimitName) (value bound : Nat)
  | tooManyFunctions (role : Role) (count bound : Nat)
  | functionTooLong (role : Role) (function : FunctionId) (length bound : Nat)
  | tooManyParams (role : Role) (function : FunctionId) (count bound : Nat)
  | tooManyReturns (role : Role) (function : FunctionId) (count bound : Nat)
  | unsupportedLanguage (found : String)
  | unsupportedVersion (version : Int32)
  | duplicateFunctionId (role : Role) (id : FunctionId)
  | misplacedFunction (role : Role) (id : FunctionId)
  | missingInitTrigger
  | multipleInitTriggers (count : Nat)
  | duplicateStateVar (index : SlotIndex)
  | duplicateStateMap (index : SlotIndex)
  | invalidTokenVar (function : FunctionId) (index : SlotIndex)
  | textualCountMismatch (part : Part) (expected found : Nat)
  | signatureMismatch (role : Role) (function : FunctionId) (part : Part) (expected found : Nat)
  | nameTooLong (part : Part) (length bound : Nat)
  | inBody (site : Site) (flaw : Flaw)
  deriving DecidableEq

/-- The label of the defect. -/
def Defect.name : Defect → String
  | undecodable _ => "Decode"
  | limitAboveFormat _ _ _ => "LimitAboveFormat"
  | tooManyFunctions _ _ _ => "TooManyFunctions"
  | functionTooLong _ _ _ _ => "FunctionTooLong"
  | tooManyParams _ _ _ _ => "TooManyParams"
  | tooManyReturns _ _ _ _ => "TooManyReturns"
  | unsupportedLanguage _ => "UnsupportedLanguage"
  | unsupportedVersion _ => "UnsupportedVersion"
  | duplicateFunctionId _ _ => "DuplicateFunctionId"
  | misplacedFunction _ _ => "MisplacedFunction"
  | missingInitTrigger => "MissingInitTrigger"
  | multipleInitTriggers _ => "MultipleInitTriggers"
  | duplicateStateVar _ => "DuplicateStateVar"
  | duplicateStateMap _ => "DuplicateStateMap"
  | invalidTokenVar _ _ => "InvalidTokenVar"
  | textualCountMismatch _ _ _ => "TextualCountMismatch"
  | signatureMismatch _ _ _ _ _ => "SignatureMismatch"
  | nameTooLong _ _ _ => "NameTooLong"
  | inBody _ flaw => flaw.name

def Defect.message : Defect → String
  | undecodable error => s!"bytecode could not be decoded: {error.message}"
  | limitAboveFormat limit value bound =>
    s!"limit {limit.text} = {value} exceeds what bytecode can carry ({bound})"
  | tooManyFunctions role count bound => s!"too many {role.name}s: {count} (max {bound})"
  | functionTooLong role function length bound =>
    s!"{role.name} {function} has {length} instructions (max {bound})"
  | tooManyParams role function count bound =>
    s!"{role.name} {function} declares {count} parameters (max {bound})"
  | tooManyReturns role function count bound =>
    s!"{role.name} {function} declares {count} return types (max {bound})"
  | unsupportedLanguage found => "unsupported language id " ++ Text.quoted found
  | unsupportedVersion version => s!"unsupported language version {version}"
  | duplicateFunctionId role id => s!"duplicate {role.name} id {id}"
  | misplacedFunction role id => s!"{role.name} list holds {id} of the wrong kind"
  | missingInitTrigger => "contract declares no init trigger"
  | multipleInitTriggers count => s!"contract declares {count} init triggers"
  | duplicateStateVar index => s!"duplicate state var index {index}"
  | duplicateStateMap index => s!"duplicate state map index {index}"
  | invalidTokenVar function index =>
    s!"trigger {function} matches tokens on state var {index}, which is not a declared TokenId var"
  | textualCountMismatch part expected found =>
    s!"textual metadata lists {found} {part.name} entries, descriptor has {expected}"
  | signatureMismatch role function part expected found =>
    s!"signature of {role.name} {function} names {found} {part.name}s, function declares {expected}"
  | nameTooLong part length bound => s!"{part.name} name of {length} bytes (max {bound})"
  | inBody site flaw => flaw.message site

namespace Contract

/-- Every function of a contract with the list it stands in, triggers first. -/
def roles (c : Contract) : List (Role × Function) :=
  c.triggers.map (Role.trigger, ·) ++ c.functions.map (Role.function, ·)

/-- Check every instruction by itself. -/
def bodyDefects (role : Role) (f : Function) (flaws : Instruction → List Flaw) : List Defect :=
  f.code.zipIdx.flatMap fun (i, position) => (flaws i).map (.inBody ⟨role, f.id, position⟩)

end Contract

end ContractMachine
