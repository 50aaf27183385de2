import ContractMachine.Validation.Valid

/-! Contracts put together part by part, each part with its name. -/

namespace ContractMachine

/-- A contract under construction. Names are kept only while every part has one. -/
structure Draft where
  version : Int32
  triggers : List Function := []
  functions : List Function := []
  stateVars : List VarDecl := []
  stateMaps : List MapDecl := []
  textual : Textual := ⟨[], [], [], []⟩
  named : Bool := true

namespace Draft

def addVar (d : Draft) (name : String) (index : SlotIndex) (type : DataType) : Draft :=
  { d with
    stateVars := d.stateVars ++ [⟨index, type⟩]
    textual := { d.textual with stateVars := d.textual.stateVars ++ [name] } }

def addMap (d : Draft) (name : String) (index : SlotIndex) (key value : DataType) : Draft :=
  { d with
    stateMaps := d.stateMaps ++ [⟨index, key, value⟩]
    textual := { d.textual with stateMaps := d.textual.stateMaps ++ [name] } }

def addTrigger (d : Draft) (signature : Signature) (f : Function) : Draft :=
  { d with
    triggers := d.triggers ++ [f]
    textual := { d.textual with triggers := d.textual.triggers ++ [signature] } }

def addFunction (d : Draft) (signature : Signature) (f : Function) : Draft :=
  { d with
    functions := d.functions ++ [f]
    textual := { d.textual with functions := d.textual.functions ++ [signature] } }

/-- Add a function without a signature; the contract then has no names at all. -/
def addUnnamedFunction (d : Draft) (f : Function) : Draft :=
  { d with functions := d.functions ++ [f], named := false }

def toContract (d : Draft) : Contract where
  language := languageId
  version := d.version
  triggers := d.triggers
  functions := d.functions
  stateVars := d.stateVars
  stateMaps := d.stateMaps
  textual := if d.named then some d.textual else none

end Draft

end ContractMachine
