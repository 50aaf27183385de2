import ContractMachine.Validation.Defect

/-! Limits on the size of a contract. -/

namespace ContractMachine

/-- Bounds that a contract is validated against; the defaults are those of the protocol. -/
structure Limits where
  /-- Number of registers of one call. -/
  registerCapacity : Nat := 64
  /-- Instructions in one body. -/
  maxInstructions : Nat := 256
  /-- Functions in one list. -/
  maxFunctions : Nat := 64
  /-- Bytes in one text literal. -/
  maxShortText : Nat := ContractMachine.maxShortText
  deriving DecidableEq

/-- The largest limits whose contracts the wire format carries. -/
def Limits.format : Limits := ⟨256, 65535, 65535, ContractMachine.maxShortText⟩

/-- Largest count that fits in one byte. -/
def maxByteCount : Nat := 255

/-- Each limit with the bound that the format puts on it. -/
def Limits.againstFormat (l : Limits) : List (LimitName × Nat × Nat) :=
  [(.registerCapacity, l.registerCapacity, Limits.format.registerCapacity),
    (.maxInstructions, l.maxInstructions, Limits.format.maxInstructions),
    (.maxFunctions, l.maxFunctions, Limits.format.maxFunctions),
    (.maxShortText, l.maxShortText, Limits.format.maxShortText)]

/-- Literals that are too long. -/
def Instruction.sizeFlaws (l : Limits) : Instruction → List Flaw
  | constant (.shortText s) _ =>
    if Text.size s ≤ l.maxShortText then [] else [.textTooLong (Text.size s) l.maxShortText]
  | constant (.bigInteger n) _ =>
    let width := TwosComplement.minWidth n
    if width ≤ maxBigInteger then [] else [.bigIntegerTooLong width maxBigInteger]
  | _ => []

def Function.sizeDefects (l : Limits) (role : Role) (f : Function) : List Defect :=
  -- a count of parameters is one byte even when there are more registers
  let maxParams := min l.registerCapacity maxByteCount
  (if f.code.length ≤ l.maxInstructions then []
    else [.functionTooLong role f.id f.code.length l.maxInstructions]) ++
  (if f.params.length ≤ maxParams then []
    else [.tooManyParams role f.id f.params.length maxParams]) ++
  (if f.returns.length ≤ maxByteCount then []
    else [.tooManyReturns role f.id f.returns.length maxByteCount]) ++
  Contract.bodyDefects role f (Instruction.sizeFlaws l)

namespace Contract

def countDefects (l : Limits) (role : Role) (functions : List Function) : List Defect :=
  if functions.length ≤ l.maxFunctions then []
  else [.tooManyFunctions role functions.length l.maxFunctions]

def limitDefects (c : Contract) (l : Limits) : List Defect :=
  l.againstFormat.flatMap (fun (limit, value, bound) =>
    if value ≤ bound then [] else [.limitAboveFormat limit value bound]) ++
  countDefects l .trigger c.triggers ++ countDefects l .function c.functions ++
  c.roles.flatMap fun (role, f) => f.sizeDefects l role

end Contract

end ContractMachine
