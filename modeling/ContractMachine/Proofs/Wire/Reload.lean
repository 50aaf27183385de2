import ContractMachine.Proofs.Acceptance
import ContractMachine.Proofs.Wire.RoundTrip
import Mathlib.Data.List.Perm.Subperm

/-! Accepted contracts are read back from their bytecode. The checks together bound every list,
name and literal by what the format carries, and limits may be relaxed up to those of the format. -/

namespace ContractMachine

/-! ### Larger limits -/

section Mono

variable {l k : Limits}

theorem Instruction.sizeFlaws_eq_nil_mono (hle : l ≤ k) {i : Instruction}
    (h : i.sizeFlaws l = []) : i.sizeFlaws k = [] := by
  cases i with
  | constant v dest =>
      cases v with
      | shortText s =>
          have hsize : Text.size s ≤ l.maxShortText :=
            (ite_nil_singleton_eq_nil_iff _ _).mp h
          exact (ite_nil_singleton_eq_nil_iff _ _).mpr (hsize.trans hle.2.2.2)
      | _ => exact h
  | _ => exact h

theorem Function.WithinLimits.mono (hle : l ≤ k) {f : Function} (h : f.WithinLimits l) :
    f.WithinLimits k where
  code := h.code.trans hle.2.1
  params := h.params.trans (by have hcapacity := hle.1; omega)
  returns := h.returns
  literals i hi := Instruction.sizeFlaws_eq_nil_mono hle (h.literals i hi)

theorem Contract.WithinLimits.mono (hle : l ≤ k) (hformat : k ≤ .format) {c : Contract}
    (h : c.WithinLimits l) : c.WithinLimits k where
  format := hformat
  triggers := h.triggers.trans hle.2.2.1
  functions := h.functions.trans hle.2.2.1
  bodies f hf := (h.bodies f hf).mono hle

theorem Instruction.InBounds.mono {c : Contract} {small large : Nat} (hle : small ≤ large)
    {i : Instruction} (h : i.InBounds c small) : i.InBounds c large where
  stateVar := h.stateVar
  stateMap := h.stateMap
  registers r hr := Nat.lt_of_lt_of_le (h.registers r hr) hle

/-- Contracts stay accepted when limits are relaxed within the format. -/
theorem Contract.defects_eq_nil_mono (hle : l ≤ k) (hformat : k ≤ .format) {c : Contract}
    (h : c.defects l = []) : c.defects k = [] := by
  obtain ⟨hlimits, hheader, hstructure, hbounds, htypes, htextual⟩ := defects_eq_nil_iff.mp h
  refine defects_eq_nil_iff.mpr ⟨?_, hheader, hstructure, ?_, htypes, htextual⟩
  · exact limitDefects_eq_nil_iff.mpr ((limitDefects_eq_nil_iff.mp hlimits).mono hle hformat)
  · refine boundsDefects_eq_nil_iff.mpr fun f hf => ?_
    obtain ⟨htoken, hin⟩ := boundsDefects_eq_nil_iff.mp hbounds f hf
    exact ⟨htoken, fun i hi => (hin i hi).mono hle.1⟩

end Mono

/-! ### Bounds of the format -/

theorem length_le_of_nodup {indices : List SlotIndex} (h : indices.Nodup) :
    indices.length ≤ 256 := by
  have hnumbers : (indices.map UInt8.toNat).Nodup :=
    h.map fun _ _ heq => UInt8.toNat_inj.mp heq
  have hsubset : indices.map UInt8.toNat ⊆ List.range 256 := by
    intro n hn
    obtain ⟨index, -, rfl⟩ := List.mem_map.mp hn
    exact List.mem_range.mpr index.toNat_lt
  simpa using (hnumbers.subperm hsubset).length_le

theorem Instruction.carried_of_sizeFlaws {l : Limits} (hformat : l ≤ .format) {i : Instruction}
    (h : i.sizeFlaws l = []) : i.Carried := by
  have h := sizeFlaws_eq_nil_mono hformat h
  cases i with
  | constant v dest =>
      cases v with
      | shortText s => exact decide_eq_true ((ite_nil_singleton_eq_nil_iff _ _).mp h)
      | bigInteger n => exact decide_eq_true ((ite_nil_singleton_eq_nil_iff _ _).mp h)
      | _ => rfl
  | _ => trivial

theorem Function.WithinLimits.carried {l : Limits} (hformat : l ≤ .format) {f : Function}
    (h : f.WithinLimits l) : f.Carried where
  returns := h.returns
  params := h.params.trans (Nat.min_le_right _ _)
  code := h.code.trans hformat.2.1
  literals i hi := Instruction.carried_of_sizeFlaws hformat (h.literals i hi)

/-- Signatures have as many names as their functions have parameters and results. -/
theorem Signature.carried_of_zip {functions : List Function} {signatures : List Signature}
    (hlength : functions.length = signatures.length)
    (hmatch : ∀ e ∈ functions.zip signatures,
      e.1.params.length = e.2.params.length ∧ e.1.returns.length = e.2.returns.length)
    (hfunctions : ∀ f ∈ functions, f.Carried)
    (hnames : ∀ s ∈ signatures, ∀ e ∈ s.names, Text.size e.2 ≤ maxName) :
    ∀ s ∈ signatures, s.Carried := by
  intro s hs
  obtain ⟨n, hn, rfl⟩ := List.mem_iff_getElem.mp hs
  have hn' : n < functions.length := hlength ▸ hn
  have hpair : (functions[n], signatures[n]) ∈ functions.zip signatures :=
    List.mem_iff_getElem.mpr ⟨n, by simp [hn, hn'], List.getElem_zip⟩
  obtain ⟨hparams, hreturns⟩ := hmatch _ hpair
  have hcarried := hfunctions functions[n] (List.getElem_mem hn')
  have hsizes := hnames signatures[n] hs
  simp only [names, List.cons_append, List.forall_mem_cons, List.forall_mem_append,
    List.forall_mem_map] at hsizes
  obtain ⟨hname, hparamNames, hreturnNames⟩ := hsizes
  exact ⟨hname, ⟨hparams ▸ hcarried.params, hparamNames⟩,
    ⟨hreturns ▸ hcarried.returns, hreturnNames⟩⟩

/-- Names that fit a contract that the format carries are carried as well. -/
theorem Textual.Names.carried {t : Textual} {c : Contract} (h : t.Names c)
    (htriggers : c.triggers.length ≤ 65535 ∧ ∀ f ∈ c.triggers, f.Carried)
    (hfunctions : c.functions.length ≤ 65535 ∧ ∀ f ∈ c.functions, f.Carried)
    (hstateVars : c.stateVars.length ≤ 65535) (hstateMaps : c.stateMaps.length ≤ 65535) :
    t.Carried := by
  have hnames := h.names
  simp only [Textual.names, List.forall_mem_append, List.forall_mem_map, List.mem_flatMap,
    forall_exists_index, and_imp] at hnames
  obtain ⟨⟨hsignatures, hvars⟩, hmaps⟩ := hnames
  have htriggerNames : ∀ s ∈ t.triggers, ∀ e ∈ s.names, Text.size e.2 ≤ maxName :=
    fun s hs e he => (hsignatures e).1 s hs he
  have hfunctionNames : ∀ s ∈ t.functions, ∀ e ∈ s.names, Text.size e.2 ≤ maxName :=
    fun s hs e he => (hsignatures e).2 s hs he
  refine ⟨⟨h.triggers_length ▸ htriggers.1, ?_⟩, ⟨h.functions_length ▸ hfunctions.1, ?_⟩,
    ⟨h.stateVars_length ▸ hstateVars, hvars⟩, ⟨h.stateMaps_length ▸ hstateMaps, hmaps⟩⟩
  · exact Signature.carried_of_zip h.triggers_length h.triggers htriggers.2 htriggerNames
  · exact Signature.carried_of_zip h.functions_length h.functions hfunctions.2 hfunctionNames

/-- The format carries every accepted contract. -/
theorem Contract.carried_of_defects {c : Contract} {l : Limits} (h : c.defects l = []) :
    c.Carried := by
  obtain ⟨hlimits, hheader, hstructure, -, -, htextual⟩ := defects_eq_nil_iff.mp h
  obtain ⟨hformat, htriggers, hfunctions, hbodies⟩ := limitDefects_eq_nil_iff.mp hlimits
  simp only [headerDefects, List.append_eq_nil_iff, ite_nil_singleton_eq_nil_iff] at hheader
  simp only [structureDefects, List.append_eq_nil_iff, slotDefects_eq_nil_iff] at hstructure
  have hvars : c.stateVars.length ≤ 65535 := by
    have hcount := length_le_of_nodup hstructure.1.2
    rw [List.length_map] at hcount
    omega
  have hmaps : c.stateMaps.length ≤ 65535 := by
    have hcount := length_le_of_nodup hstructure.2
    rw [List.length_map] at hcount
    omega
  have htriggers : c.triggers.length ≤ 65535 ∧ ∀ f ∈ c.triggers, f.Carried :=
    ⟨htriggers.trans hformat.2.2.1,
      fun f hf => (hbodies f (List.mem_append_left _ hf)).carried hformat⟩
  have hfunctions : c.functions.length ≤ 65535 ∧ ∀ f ∈ c.functions, f.Carried :=
    ⟨hfunctions.trans hformat.2.2.1,
      fun f hf => (hbodies f (List.mem_append_right _ hf)).carried hformat⟩
  refine ⟨by rw [hheader.1]; decide, htriggers, hfunctions, hvars, hmaps, fun t ht => ?_⟩
  have hfits := textualDefects_eq_nil_iff.mp htextual t ht
  exact hfits.carried htriggers hfunctions hvars hmaps

/-! ### Reloading -/

/-- An accepted contract is read back from its bytecode, so that no other accepted contract has
this bytecode. Under limits that are not above the defaults, loading the bytecode gives the same
contract under the same id. -/
theorem ValidContract.accepted_contract_reloads {c : Contract} {l : Limits} {v : ValidContract}
    (hcheck : check c l = .ok v) :
    Contract.decode c.encode = .ok c ∧
      (∀ c' l' v', check c' l' = .ok v' → c'.encode = c.encode → c' = c) ∧
      (l ≤ {} → ∃ w, ofBytecode c.encode = .ok w ∧ w.contract = v.contract ∧
        w.contract.id = v.contract.id) := by
  obtain ⟨hdefects, hcontract, -⟩ := check_eq_ok_iff.mp hcheck
  have hdecode := (Contract.carried_of_defects hdefects).decode_encode
  refine ⟨hdecode, fun c' l' v' hcheck' hencode => ?_, fun hle => ?_⟩
  · obtain ⟨hdefects', -, -⟩ := check_eq_ok_iff.mp hcheck'
    have hdecode' := (Contract.carried_of_defects hdefects').decode_encode
    rw [hencode, hdecode] at hdecode'
    exact (Except.ok.inj hdecode').symm
  · have hdefault : c.defects {} = [] := Contract.defects_eq_nil_mono hle (by decide) hdefects
    refine ⟨⟨c, {}, hdefault⟩, ?_, hcontract.symm, by rw [hcontract]⟩
    rw [ofBytecode, hdecode]
    exact check_eq_ok_iff.mpr ⟨hdefault, rfl, rfl⟩

/-- The savings survive their own bytecode, with their big literal and their names. -/
theorem ValidContract.savings_reload : check Savings.contract {} = .ok Savings.valid ∧
    Contract.decode Savings.contract.encode = .ok Savings.contract ∧
      ∃ w, ofBytecode Savings.contract.encode = .ok w ∧ w.contract = Savings.contract ∧
        w.contract.id = Savings.contract.id := by
  obtain ⟨hdecode, -, hreload⟩ := accepted_contract_reloads Savings.check_contract
  exact ⟨Savings.check_contract, hdecode, hreload (by decide)⟩

end ContractMachine
