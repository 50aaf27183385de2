import ContractMachine.Validation.Structure

/-! Types of registers. Bodies have no branches, so one walk from the parameters on knows which
registers are written and, except behind a conversion to a computed type, what they hold. -/

namespace ContractMachine

/-- What is known of a written register. -/
structure Cell where
  /-- The type of its value, where it is known. -/
  type : Option DataType
  /-- The type that its value names, where that value is a literal. -/
  literal : Option DataType
  deriving DecidableEq

/-- The written registers. -/
abbrev Cells := OrderedMap Register Cell

namespace Cells

/-- The parameters, in the first registers. -/
def ofParams (params : List DataType) : Cells :=
  .ofList ((params.take 256).zipIdx.map fun (type, n) => (UInt8.ofNat n, ⟨some type, none⟩))

def type? (cells : Cells) (r : Register) : Option DataType := (cells.get? r).bind Cell.type

def literal? (cells : Cells) (r : Register) : Option DataType := (cells.get? r).bind Cell.literal

/-- A register is read only after it is written. -/
def readFlaws (cells : Cells) (r : Register) : List Flaw :=
  if cells.contains r then [] else [.undefinedRegister r]

end Cells

namespace Flaw

/-- Two known types that have to agree. -/
def ofTypes (found expected : Option DataType) : List Flaw :=
  match found, expected with
  | some found, some expected => if found = expected then [] else [typeMismatch expected found]
  | _, _ => []

/-- A known type that has to be in a class. -/
def ofClass (op : Opcode) (accepts : DataType → Bool) : Option DataType → List Flaw
  | some found => if accepts found then [] else [invalidOperand op found]
  | none => []

/-- A known type that has to have a zero. -/
def ofZero : Option DataType → List Flaw
  | some type => if (Value.zero? type).isSome then [] else [noDefaultValue type]
  | none => []

def ofConversion (source target : Option DataType) : List Flaw :=
  match source, target with
  | some source, some target =>
    if source.convertible target then [] else [unsupportedConversion source target]
  | _, _ => []

end Flaw

namespace Contract

def varType? (c : Contract) (index : SlotIndex) : Option DataType :=
  (c.varTable.get? index).map VarDecl.type

def keyType? (c : Contract) (index : SlotIndex) : Option DataType :=
  (c.mapTable.get? index).map MapDecl.key

def entryType? (c : Contract) (index : SlotIndex) : Option DataType :=
  (c.mapTable.get? index).map MapDecl.value

end Contract

namespace Instruction

/-- A register that has to hold a value of a type, where one is required. -/
def operandFlaws (cells : Cells) (r : Register) (expected : Option DataType) : List Flaw :=
  cells.readFlaws r ++ Flaw.ofTypes (cells.type? r) expected

/-- A register that has to hold an account. -/
def accountFlaws (cells : Cells) (op : Opcode) (r : Register) : List Flaw :=
  cells.readFlaws r ++ Flaw.ofClass op DataType.isAccountLike (cells.type? r)

/-- Two registers that have to hold values of one type of a class. -/
def pairFlaws (cells : Cells) (op : Opcode) (accepts : DataType → Bool) (a b : Register) :
    List Flaw :=
  cells.readFlaws a ++ cells.readFlaws b ++ Flaw.ofClass op accepts (cells.type? a) ++
    Flaw.ofTypes (cells.type? b) (cells.type? a)

/-- What is wrong with an instruction when the registers are as in `cells`. -/
def typeFlaws (c : Contract) (cells : Cells) (i : Instruction) : List Flaw :=
  match i with
  | loadParty _ _ | loadTimestamp _ | loadLastTokenIndex _ | constant _ _ | getVar _ _ => []
  | assertParty _ account => accountFlaws cells i.opcode account
  | assertTrue cond | assertPermitted cond => operandFlaws cells cond (some .boolean)
  | assertEqual a b =>
    cells.readFlaws a ++ cells.readFlaws b ++ Flaw.ofTypes (cells.type? b) (cells.type? a)
  | assertNotExpired now deadline =>
    operandFlaws cells now (some .timestamp) ++ operandFlaws cells deadline (some .timestamp)
  | binary _ a b _ => pairFlaws cells i.opcode DataType.isArithmetic a b
  | sqrt a _ => operandFlaws cells a (some .bigInteger)
  | convert value target _ =>
    cells.readFlaws value ++ operandFlaws cells target (some .dataType) ++
      Flaw.ofConversion (cells.type? value) (cells.literal? target)
  | not a _ => operandFlaws cells a (some .boolean)
  | compare _ a b _ => pairFlaws cells i.opcode DataType.isComparable a b
  | setVar var value => operandFlaws cells value (c.varType? var)
  | getVarOrZero var _ => Flaw.ofZero (c.varType? var)
  | moveVar _ var value =>
    cells.readFlaws value ++ Flaw.ofClass i.opcode DataType.isArithmetic (c.varType? var) ++
      Flaw.ofTypes (cells.type? value) (c.varType? var)
  | setEntry map key value =>
    operandFlaws cells key (c.keyType? map) ++ operandFlaws cells value (c.entryType? map)
  | moveEntry _ map key value =>
    operandFlaws cells key (c.keyType? map) ++ cells.readFlaws value ++
      Flaw.ofClass i.opcode DataType.isArithmetic (c.entryType? map) ++
      Flaw.ofTypes (cells.type? value) (c.entryType? map)
  | getEntry map key _ => operandFlaws cells key (c.keyType? map)
  | getEntryOrZero map key _ =>
    operandFlaws cells key (c.keyType? map) ++ Flaw.ofZero (c.entryType? map)
  | newToken max unit description =>
    operandFlaws cells max (some .amount) ++ operandFlaws cells unit (some .amount) ++
      operandFlaws cells description (some .shortText)
  | deposit token amount holder =>
    operandFlaws cells token (some .int32) ++ operandFlaws cells amount (some .amount) ++
      accountFlaws cells i.opcode holder
  | transfer source token amount target =>
    accountFlaws cells i.opcode source ++ operandFlaws cells token (some .int32) ++
      operandFlaws cells amount (some .amount) ++ accountFlaws cells i.opcode target
  | balance token holder _ =>
    operandFlaws cells token (some .int32) ++ accountFlaws cells i.opcode holder

/-- The type of the result, where it is known. -/
def resultType? (c : Contract) (cells : Cells) : Instruction → Option DataType
  | loadParty _ _ => some .address
  | loadTimestamp _ => some .timestamp
  | loadLastTokenIndex _ => some .int32
  | constant value _ => some value.type
  | binary _ a b _ => (cells.type? a).or (cells.type? b)
  | sqrt _ _ => some .bigInteger
  | convert _ target _ => cells.literal? target
  | not _ _ | compare _ _ _ _ => some .boolean
  | getVar var _ | getVarOrZero var _ => c.varType? var
  | getEntry map _ _ | getEntryOrZero map _ _ => c.entryType? map
  | balance _ _ _ => some .amount
  | _ => none

/-- The type that a literal names. -/
def literal? : Instruction → Option DataType
  | constant (.dataType t) _ => some t
  | _ => none

/-- The registers after an instruction, whether or not it is flawed. -/
def typesAfter (c : Contract) (cells : Cells) (i : Instruction) : Cells :=
  match i.dest? with
  | some dest => cells.insert dest ⟨i.resultType? c cells, i.literal?⟩
  | none => cells

end Instruction

namespace Contract

/-- The flaws of a body from instruction number `position` on. -/
def typeFlawsFrom (c : Contract) : (position : Nat) → Cells → List Instruction → List (Nat × Flaw)
  | _, _, [] => []
  | position, cells, i :: rest =>
    (i.typeFlaws c cells).map (position, ·) ++
      c.typeFlawsFrom (position + 1) (i.typesAfter c cells) rest

def functionTypeDefects (c : Contract) (role : Role) (f : Function) : List Defect :=
  (c.typeFlawsFrom 0 (.ofParams f.params) f.code).map fun (position, flaw) =>
    .inBody ⟨role, f.id, position⟩ flaw

def typeDefects (c : Contract) : List Defect :=
  c.roles.flatMap fun (role, f) => c.functionTypeDefects role f

end Contract

end ContractMachine
