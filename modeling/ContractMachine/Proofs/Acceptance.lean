import ContractMachine.Validation.Valid
import Mathlib.Data.List.Nodup

/-! What it means that a contract is accepted: each check finds nothing if and only if a property
holds that mentions no defects. -/

namespace ContractMachine

/-- A check reports one defect unless its condition holds. -/
theorem ite_nil_singleton_eq_nil_iff {α : Type} (p : Prop) [Decidable p] (a : α) :
    (if p then [] else [a]) = [] ↔ p := by
  by_cases h : p <;> simp [h]

namespace Contract

theorem forall_mem_roles (c : Contract) (P : Function → Prop) :
    (∀ entry ∈ c.roles, P entry.2) ↔ ∀ f ∈ c.triggers ++ c.functions, P f := by
  simp only [roles, List.mem_append, List.mem_map]
  constructor
  · rintro h f (hf | hf)
    · exact h (.trigger, f) (.inl ⟨f, hf, rfl⟩)
    · exact h (.function, f) (.inr ⟨f, hf, rfl⟩)
  · rintro h entry (⟨f, hf, rfl⟩ | ⟨f, hf, rfl⟩)
    · exact h f (.inl hf)
    · exact h f (.inr hf)

theorem bodyDefects_eq_nil_iff {role : Role} {f : Function} {flaws : Instruction → List Flaw} :
    bodyDefects role f flaws = [] ↔ ∀ i ∈ f.code, flaws i = [] := by
  simp only [bodyDefects, List.flatMap_eq_nil_iff, List.map_eq_nil_iff, Prod.forall]
  constructor
  · intro h i hi
    obtain ⟨n, hn⟩ := List.mem_iff_getElem?.mp hi
    exact h i n (List.mk_mem_zipIdx_iff_getElem?.mpr hn)
  · intro h i n hi
    exact h i (List.fst_mem_of_mem_zipIdx hi)

end Contract

/-! ### Limits -/

instance : LE Limits where
  le l k := l.registerCapacity ≤ k.registerCapacity ∧ l.maxInstructions ≤ k.maxInstructions ∧
    l.maxFunctions ≤ k.maxFunctions ∧ l.maxShortText ≤ k.maxShortText

theorem Limits.le_def {l k : Limits} : l ≤ k ↔
    l.registerCapacity ≤ k.registerCapacity ∧ l.maxInstructions ≤ k.maxInstructions ∧
      l.maxFunctions ≤ k.maxFunctions ∧ l.maxShortText ≤ k.maxShortText :=
  .rfl

instance (l k : Limits) : Decidable (l ≤ k) := decidable_of_iff' _ Limits.le_def

/-- The sizes of a function are within limits. -/
structure Function.WithinLimits (f : Function) (l : Limits) : Prop where
  code : f.code.length ≤ l.maxInstructions
  params : f.params.length ≤ min l.registerCapacity maxByteCount
  returns : f.returns.length ≤ maxByteCount
  literals : ∀ i ∈ f.code, i.sizeFlaws l = []

/-- The limits are within the format, and the sizes of the contract within the limits. -/
structure Contract.WithinLimits (c : Contract) (l : Limits) : Prop where
  format : l ≤ .format
  triggers : c.triggers.length ≤ l.maxFunctions
  functions : c.functions.length ≤ l.maxFunctions
  bodies : ∀ f ∈ c.triggers ++ c.functions, f.WithinLimits l

theorem Function.sizeDefects_eq_nil_iff {l : Limits} {role : Role} {f : Function} :
    f.sizeDefects l role = [] ↔ f.WithinLimits l := by
  simp only [sizeDefects, List.append_eq_nil_iff, ite_nil_singleton_eq_nil_iff,
    Contract.bodyDefects_eq_nil_iff]
  constructor
  · rintro ⟨⟨⟨hcode, hparams⟩, hreturns⟩, hliterals⟩
    exact ⟨hcode, hparams, hreturns, hliterals⟩
  · rintro ⟨hcode, hparams, hreturns, hliterals⟩
    exact ⟨⟨⟨hcode, hparams⟩, hreturns⟩, hliterals⟩

theorem Contract.limitDefects_eq_nil_iff {c : Contract} {l : Limits} :
    c.limitDefects l = [] ↔ c.WithinLimits l := by
  have hformat : (∀ entry ∈ l.againstFormat, entry.2.1 ≤ entry.2.2) ↔ l ≤ .format := by
    simp [Limits.againstFormat, Limits.le_def]
  simp only [limitDefects, List.append_eq_nil_iff, List.flatMap_eq_nil_iff, countDefects,
    ite_nil_singleton_eq_nil_iff, Function.sizeDefects_eq_nil_iff, hformat]
  rw [forall_mem_roles c fun f => f.WithinLimits l]
  constructor
  · rintro ⟨⟨⟨hformat, htriggers⟩, hfunctions⟩, hbodies⟩
    exact ⟨hformat, htriggers, hfunctions, hbodies⟩
  · rintro ⟨hformat, htriggers, hfunctions, hbodies⟩
    exact ⟨⟨⟨hformat, htriggers⟩, hfunctions⟩, hbodies⟩

/-! ### Slots and registers -/

/-- The slots of an instruction are declared, and its registers are there. -/
structure Instruction.InBounds (c : Contract) (capacity : Nat) (i : Instruction) : Prop where
  stateVar : ∀ index, i.stateVar? = some index → (c.stateVar? index).isSome = true
  stateMap : ∀ index, i.stateMap? = some index → (c.stateMap? index).isSome = true
  registers : ∀ r ∈ i.sources ++ i.dest?.toList, r.toNat < capacity

theorem Instruction.boundsFlaws_eq_nil_iff {c : Contract} {capacity : Nat} {i : Instruction} :
    i.boundsFlaws c capacity = [] ↔ i.InBounds c capacity := by
  simp only [boundsFlaws, List.append_eq_nil_iff, List.flatMap_eq_nil_iff,
    ite_nil_singleton_eq_nil_iff, Contract.contains_varTable, Contract.contains_mapTable]
  constructor
  · rintro ⟨⟨hvar, hmap⟩, hregisters⟩
    refine ⟨fun index h => ?_, fun index h => ?_, hregisters⟩
    · simpa only [h, ite_nil_singleton_eq_nil_iff] using hvar
    · simpa only [h, ite_nil_singleton_eq_nil_iff] using hmap
  · rintro ⟨hvar, hmap, hregisters⟩
    refine ⟨⟨?_, ?_⟩, hregisters⟩
    · cases h : i.stateVar? with
      | none => rfl
      | some index => simp only [hvar index h, if_true]
    · cases h : i.stateMap? with
      | none => rfl
      | some index => simp only [hmap index h, if_true]

theorem Contract.boundsDefects_eq_nil_iff {c : Contract} {l : Limits} :
    c.boundsDefects l = [] ↔ ∀ f ∈ c.triggers ++ c.functions,
      c.tokenVarDefects f = [] ∧ ∀ i ∈ f.code, i.InBounds c l.registerCapacity := by
  simp only [boundsDefects, List.flatMap_eq_nil_iff, List.append_eq_nil_iff,
    bodyDefects_eq_nil_iff, Instruction.boundsFlaws_eq_nil_iff]
  exact forall_mem_roles c fun f =>
    c.tokenVarDefects f = [] ∧ ∀ i ∈ f.code, i.InBounds c l.registerCapacity

/-! ### Types -/

theorem Contract.typeDefects_eq_nil_iff {c : Contract} :
    c.typeDefects = [] ↔ ∀ f ∈ c.triggers ++ c.functions,
      c.typeFlawsFrom 0 (.ofParams f.params) f.code = [] := by
  simp only [typeDefects, functionTypeDefects, List.flatMap_eq_nil_iff, List.map_eq_nil_iff]
  exact forall_mem_roles c fun f => c.typeFlawsFrom 0 (.ofParams f.params) f.code = []

/-! ### Distinct slots -/

theorem forall_repeats_eq_false_iff {α : Type} [BEq α] [LawfulBEq α] (seen xs : List α) :
    (∀ e ∈ xs.zip (repeats seen xs), e.2 = false) ↔ xs.Nodup ∧ ∀ x ∈ xs, x ∉ seen := by
  induction xs generalizing seen with
  | nil => simp
  | cons x xs ih =>
      by_cases hx : x ∈ seen
      · simp [repeats, hx]
      · have hrest := ih (x :: seen)
        simp only [repeats, List.contains_iff_mem, hx, if_false, List.zip_cons_cons,
          List.forall_mem_cons, true_and, List.nodup_cons, not_false_eq_true, hrest]
        grind

theorem Contract.slotDefects_eq_nil_iff {defect : SlotIndex → Defect} {indices : List SlotIndex} :
    slotDefects defect indices = [] ↔ indices.Nodup := by
  have hnodup := forall_repeats_eq_false_iff [] indices
  simp only [List.not_mem_nil, not_false_eq_true, implies_true, and_true] at hnodup
  rw [← hnodup, slotDefects, List.flatMap_eq_nil_iff]
  refine forall₂_congr fun e _ => ?_
  obtain ⟨index, repeated⟩ := e
  cases repeated <;> simp

/-! ### Names -/

/-- There are names for all parts of the contract, and none is too long. -/
structure Textual.Names (t : Textual) (c : Contract) : Prop where
  triggers_length : c.triggers.length = t.triggers.length
  functions_length : c.functions.length = t.functions.length
  stateVars_length : c.stateVars.length = t.stateVars.length
  stateMaps_length : c.stateMaps.length = t.stateMaps.length
  triggers : ∀ e ∈ c.triggers.zip t.triggers,
    e.1.params.length = e.2.params.length ∧ e.1.returns.length = e.2.returns.length
  functions : ∀ e ∈ c.functions.zip t.functions,
    e.1.params.length = e.2.params.length ∧ e.1.returns.length = e.2.returns.length
  names : ∀ e ∈ t.names, Text.size e.2 ≤ maxName

theorem Contract.textualDefects_eq_nil_iff {c : Contract} :
    c.textualDefects = [] ↔ ∀ t ∈ c.textual, t.Names c := by
  rw [textualDefects]
  cases c.textual with
  | none => simp
  | some t =>
      simp only [List.append_eq_nil_iff, Textual.countDefects, signatureDefects,
        Signature.mismatches, Textual.nameDefects, List.flatMap_eq_nil_iff,
        ite_nil_singleton_eq_nil_iff, Option.mem_def, Option.some.injEq, forall_eq']
      constructor
      · rintro ⟨⟨⟨⟨⟨⟨htc, hfc⟩, hvc⟩, hmc⟩, htriggers⟩, hfunctions⟩, hnames⟩
        exact ⟨htc, hfc, hvc, hmc, htriggers, hfunctions, hnames⟩
      · rintro ⟨htc, hfc, hvc, hmc, htriggers, hfunctions, hnames⟩
        exact ⟨⟨⟨⟨⟨⟨htc, hfc⟩, hvc⟩, hmc⟩, htriggers⟩, hfunctions⟩, hnames⟩

/-! ### All checks -/

theorem Contract.defects_eq_nil_iff {c : Contract} {l : Limits} :
    c.defects l = [] ↔ c.limitDefects l = [] ∧ c.headerDefects = [] ∧ c.structureDefects = [] ∧
      c.boundsDefects l = [] ∧ c.typeDefects = [] ∧ c.textualDefects = [] := by
  simp only [defects, List.append_eq_nil_iff]
  constructor
  · rintro ⟨⟨⟨⟨hlimits, hheader⟩, hstructure, hbounds⟩, htypes⟩, htextual⟩
    rw [hstructure, hbounds] at htypes
    exact ⟨hlimits, hheader, hstructure, hbounds, htypes, htextual⟩
  · rintro ⟨hlimits, hheader, hstructure, hbounds, htypes, htextual⟩
    rw [hstructure, hbounds]
    exact ⟨⟨⟨⟨hlimits, hheader⟩, rfl, rfl⟩, htypes⟩, htextual⟩

theorem ValidContract.check_eq_ok_iff {c : Contract} {l : Limits} {v : ValidContract} :
    check c l = .ok v ↔ c.defects l = [] ∧ v.contract = c ∧ v.limits = l := by
  obtain ⟨contract, limits, accepted⟩ := v
  rw [check]
  split
  · rename_i h
    simp [h, eq_comm]
  · rename_i h
    simp [h]

/-! ### A small contract -/

namespace Savings

/-- The caller gives up some thousandths of its savings to the fund. -/
def charge : Function where
  id := 0
  kind := .callable
  returns := []
  params := [.amount]
  code :=
    [.loadParty .caller 1, .getEntryOrZero 0 1 2, .constant (.dataType .bigInteger) 3,
      .convert 2 3 4, .convert 0 3 5, .binary .multiply 4 5 6, .constant (.bigInteger 1000) 7,
      .binary .divide 6 7 8, .constant (.dataType .amount) 9, .convert 8 9 10,
      .moveEntry .minus 0 1 10, .moveVar .add 1 10]

/-- Keeps what accounts have paid in of one token, and a fund that is charged to them. -/
def contract : Contract where
  language := languageId
  version := 2
  triggers :=
    [⟨0, .onInit, [], [.tokenId], [.setVar 0 0]⟩,
      ⟨1, .onDeposit 0, [], [.address, .amount], [.moveEntry .add 0 0 1]⟩,
      ⟨2, .onWithdraw 0, [], [.address, .amount], [.moveEntry .minus 0 0 1]⟩]
  functions := [charge]
  stateVars := [⟨0, .tokenId⟩, ⟨1, .amount⟩]
  stateMaps := [⟨0, .address, .amount⟩]
  textual := some
    { triggers := [⟨"init", ["token"], []⟩, ⟨"deposit", ["account", "amount"], []⟩,
        ⟨"withdraw", ["account", "amount"], []⟩]
      functions := [⟨"charge", ["thousandths"], []⟩]
      stateVars := ["token", "fund"]
      stateMaps := ["savings"] }

theorem accepted : contract.defects {} = [] := by decide +kernel

def valid : ValidContract := ⟨contract, {}, accepted⟩

theorem check_contract : ValidContract.check contract {} = .ok valid :=
  ValidContract.check_eq_ok_iff.mpr ⟨accepted, rfl, rfl⟩

end Savings

end ContractMachine
