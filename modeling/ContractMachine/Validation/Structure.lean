import ContractMachine.Validation.Defect

/-! Distinct ids and slots, functions in the list that fits their kind, one init trigger. -/

namespace ContractMachine

/-- Those members that occur earlier in the list or in `seen`. -/
def repeats {α : Type} [BEq α] (seen : List α) : List α → List Bool
  | [] => []
  | a :: rest =>
    if seen.contains a then true :: repeats seen rest else false :: repeats (a :: seen) rest

def Role.fits (role : Role) (kind : FunctionKind) : Bool :=
  match role with
  | trigger => kind.isTrigger
  | function => !kind.isTrigger

namespace Contract

def listDefects (role : Role) (functions : List Function) : List Defect :=
  (functions.zip (repeats [] (functions.map Function.id))).flatMap fun (f, repeated) =>
    (if repeated then [.duplicateFunctionId role f.id] else []) ++
    (if role.fits f.kind then [] else [.misplacedFunction role f.id])

/-- The triggers that run at deployment. -/
def initTriggers (c : Contract) : List Function :=
  c.triggers.filter fun f => f.kind == .onInit

def initDefects (c : Contract) : List Defect :=
  match c.initTriggers with
  | [] => [.missingInitTrigger]
  | [_] => []
  | inits => [.multipleInitTriggers inits.length]

/-- A defect for every index that was declared before. -/
def slotDefects (defect : SlotIndex → Defect) (indices : List SlotIndex) : List Defect :=
  (indices.zip (repeats [] indices)).flatMap fun (index, repeated) =>
    if repeated then [defect index] else []

def structureDefects (c : Contract) : List Defect :=
  listDefects .trigger c.triggers ++ listDefects .function c.functions ++ c.initDefects ++
  slotDefects .duplicateStateVar (c.stateVars.map VarDecl.index) ++
  slotDefects .duplicateStateMap (c.stateMaps.map MapDecl.index)

/-- Declared state variables by index; the first declaration of an index counts. -/
def varTable (c : Contract) : OrderedMap SlotIndex VarDecl :=
  .ofList (c.stateVars.reverse.map fun d => (d.index, d))

/-- Declared state maps by index; the first declaration of an index counts. -/
def mapTable (c : Contract) : OrderedMap SlotIndex MapDecl :=
  .ofList (c.stateMaps.reverse.map fun d => (d.index, d))

@[simp] theorem get?_varTable (c : Contract) (index : SlotIndex) :
    c.varTable.get? index = c.stateVar? index :=
  OrderedMap.get?_ofList_reverse VarDecl.index c.stateVars index

@[simp] theorem get?_mapTable (c : Contract) (index : SlotIndex) :
    c.mapTable.get? index = c.stateMap? index :=
  OrderedMap.get?_ofList_reverse MapDecl.index c.stateMaps index

@[simp] theorem contains_varTable (c : Contract) (index : SlotIndex) :
    c.varTable.contains index = (c.stateVar? index).isSome := by
  rw [OrderedMap.contains, get?_varTable]

@[simp] theorem contains_mapTable (c : Contract) (index : SlotIndex) :
    c.mapTable.contains index = (c.stateMap? index).isSome := by
  rw [OrderedMap.contains, get?_mapTable]

end Contract

end ContractMachine
