import ContractMachine.Proofs.AccessList.Registry
import ContractMachine.Proofs.State.Grants

/-! The bodies of the functions of an access list, run symbolically on any state that shows a
registry. -/

namespace ContractMachine.AccessList

open Machine

theorem stateVar_contract (policy : Policy) (context : Context) (position : Nat) :
    Env.stateVar ⟨contract policy, context⟩ 0 position = .ok ⟨0, .address⟩ ∧
    Env.stateVar ⟨contract policy, context⟩ 1 position = .ok ⟨1, .address⟩ :=
  ⟨rfl, rfl⟩

theorem stateMap_contract (policy : Policy) (context : Context) (position : Nat) :
    Env.stateMap ⟨contract policy, context⟩ 0 position = .ok ⟨0, .address, .boolean⟩ := rfl

theorem orZero_boolean (stored : Option Value) (position : Nat) :
    Value.orZero stored .boolean position = .ok (stored.getD (.boolean false)) :=
  Value.orZero_eq_ok rfl stored position

theorem Registry.Shows.reads {r : Registry} {v : View} (h : r.Shows v) :
    v.var 0 = some (.address r.issuer) ∧ v.var 1 = some (.address r.maker) ∧
    ∀ account, (v.entry 0 (.address account)).getD (.boolean false) =
      .boolean (r.listed account) :=
  ⟨h.issuer, h.maker, h.listed⟩

/-! ### What the ledger grants -/

namespace Registry

variable {r : Registry} {v : View} {P : List Update → Prop}

/-- A unit passes from its holder, and from nobody else. -/
theorem grants_transfer (hr : r.Shows v) (index : Int) (sender recipient : Address) :
    (v.transfer index sender recipient 1).Grants P ↔
      ∃ i : TokenIndex, index = i.toNat ∧ r.holder? i = some sender ∧
        P (r.updates (.pass i sender recipient)) := by
  have hone : (1 : Int64).toInt = 1 := rfl
  rw [View.grants_transfer, hone, and_iff_right (by decide), Present]
  refine exists_congr fun i => and_congr tokenIndex?_eq_some_iff ?_
  by_cases hheld : r.holder? i = some sender
  · obtain ⟨deed, hdeed, -⟩ := Option.map_eq_some_iff.mp hheld
    have hlast : v.balance i sender - 1 = 0 := by
      rw [hr.balance, balance, if_pos hheld]
      rfl
    have hcredited : (v.update (.balance i sender 0)).balance i recipient = 0 := by
      by_cases hself : recipient = sender <;>
        simp [View.update, hself, hr.balance, balance, hheld, eq_comm]
    rw [hr.token, hdeed, hlast, hcredited, hr.balance, balance, if_pos hheld, and_iff_right hheld]
    have hfits : int64? 1 = some 1 := rfl
    simp [updates, hfits]
  · have hnone : ¬ 1 ≤ (v.balance i sender).toInt := by
      rw [hr.balance, balance, if_neg hheld]
      decide
    simp [hheld, hnone, Present]

theorem grants_deposit (hr : r.Shows v) (description : String) :
    (((v.update (.token r.nextToken ⟨1, 1, description, 0⟩)).update
        (.tokenCount (r.nextToken + 1))).deposit r.nextToken.toNat r.issuer 1).Grants P ↔
      P [.token r.nextToken ⟨1, 1, description, 1⟩, .balance r.nextToken r.issuer 1] := by
  have hindex : tokenIndex? r.nextToken.toNat = some r.nextToken := tokenIndex?_eq_some_iff.mpr rfl
  have hfits : int64? 1 = some 1 := rfl
  rw [View.grants_deposit]
  simp [hindex, View.update, hr.balance, hr.balance_nextToken, hfits]

/-- The unit of a token that was just defined goes to the issuer, if the index of the token is a
32-bit number. -/
theorem grants_deposit_last (hr : r.Shows v) (description : String) :
    (r.nextToken.toNat + 1 < 4294967296 ∧ ∃ last : Int32,
        (0 ≤ last.toInt ∧ last.toInt + 1 = (r.nextToken + 1).toNat) ∧
          (((v.update (.token r.nextToken ⟨1, 1, description, 0⟩)).update
            (.tokenCount (r.nextToken + 1))).deposit last.toInt r.issuer 1).Grants P) ↔
      r.deeds.length < 2147483648 ∧
        P [.token r.nextToken ⟨1, 1, description, 1⟩, .balance r.nextToken r.issuer 1] := by
  rw [← toNat_nextToken hr, ← grants_deposit hr description (P := P)]
  generalize r.nextToken = next
  constructor
  · rintro ⟨hroom, last, ⟨-, hlast⟩, hgrants⟩
    have hindex : last.toInt = next.toNat := by
      rw [toNat_succ_tokenIndex hroom] at hlast
      omega
    have hsmall := last.toInt_lt
    rw [hindex] at hgrants
    exact ⟨by omega, hgrants⟩
  · rintro ⟨hsmall, hgrants⟩
    have hroom : next.toNat + 1 < 4294967296 := by omega
    have hindex : (Int32.ofInt next.toNat).toInt = next.toNat :=
      Int32.toInt_ofInt_of_le (by omega) (by omega)
    refine ⟨hroom, .ofInt next.toNat, ⟨by omega, ?_⟩, by rwa [hindex]⟩
    rw [hindex, toNat_succ_tokenIndex hroom]
    rfl

end Registry

/-! ### Running the bodies -/

attribute [local simp] stateVar_contract stateMap_contract orZero_boolean
  Overlay.view_record Overlay.record_record View.update Value.type Value.account?
  RegisterFile.getAmount RegisterFile.getInt32 RegisterFile.getText
  RegisterFile.getBool RegisterFile.getTyped RegisterFile.getAccount Context.party?
  assign_ofValues

set_option maxRecDepth 4000

variable {policy : Policy} {r : Registry} {o : Overlay} {context : Context} {Q : Overlay → Prop}

theorem completes_init :
    Completes ⟨contract policy, context⟩ init.code ⟨.ofValues 64 [], o⟩ (fun m => Q m.overlay) ↔
      ∃ maker, context.signer = some maker ∧
        Q (o.record [.var issuerVar (.address maker), .var makerVar (.address maker)]) := by
  conv => lhs; arg 2; cbv
  simp [issuerVar, makerVar]

theorem completes_supersede (hr : r.Shows o.view) (account : Address) :
    Completes ⟨contract policy, context⟩ supersede.code ⟨.ofValues 64 [.address account], o⟩
        (fun m => Q m.overlay) ↔
      context.signer = some r.maker ∧ Q (o.record (r.updates (.issuer account))) := by
  conv => lhs; arg 2; cbv
  simp [hr.reads, Registry.updates, issuerVar]

theorem completes_updateList (hr : r.Shows o.view) (account : Address) (listed : Bool) :
    Completes ⟨contract policy, context⟩ updateList.code
        ⟨.ofValues 64 [.address account, .boolean listed], o⟩ (fun m => Q m.overlay) ↔
      context.caller = some r.issuer ∧ Q (o.record (r.updates (.flag account listed))) := by
  conv => lhs; arg 2; cbv
  simp [hr.reads, Registry.updates, listedMap]

theorem completes_issue (hr : r.Shows o.view) (description : String) :
    Completes ⟨contract policy, context⟩ issue.code
        ⟨.ofValues 64 [.shortText description], o⟩ (fun m => Q m.overlay) ↔
      context.caller = some r.issuer ∧ r.deeds.length < 2147483648 ∧
        Q (o.record (r.updates (.issue description))) := by
  have hcount : ∀ (v : View) n, (v.update (.tokenCount n)).tokenCount = n := fun _ _ => rfl
  conv => lhs; arg 2; cbv
  -- the new token stays an update of the view, as the deposit of its unit is stated
  simp [-View.update, -View.grants_deposit, -UInt32.toNat_add, hr.reads, hr.nextToken, hcount,
    Registry.grants_deposit_last hr, Registry.updates]

theorem completes_send (hr : r.Shows o.view) (recipient : Address) (index : Int32) :
    Completes ⟨contract policy, context⟩ (send policy).code
        ⟨.ofValues 64 [.address recipient, .int32 index], o⟩ (fun m => Q m.overlay) ↔
      ∃ sender, context.caller = some sender ∧ policy.permits (r.listed sender) = true ∧
        policy.permits (r.listed recipient) = true ∧ ∃ i : TokenIndex, index.toInt = i.toNat ∧
          r.holder? i = some sender ∧ Q (o.record (r.updates (.pass i sender recipient))) := by
  cases policy <;> conv => lhs; arg 2; cbv
  all_goals
    simp [-View.grants_transfer, Registry.grants_transfer hr, hr.reads, Policy.permits]

/-- Both permissions are asked for before the token is looked up. -/
theorem exists_trap_of_send (hr : r.Shows o.view) {sender recipient : Address}
    (hcaller : context.caller = some sender) (index : Int32)
    (h : policy.permits (r.listed sender) = false ∨ policy.permits (r.listed recipient) = false) :
    ∃ position, runFrom ⟨contract policy, context⟩ 0 (send policy).code
        ⟨.ofValues 64 [.address recipient, .int32 index], o⟩ =
      .error (.trap position .notPermitted) := by
  have hstop : ∀ n cond, (send policy).code = (send policy).code.take n ++
        .assertPermitted cond :: (send policy).code.drop (n + 1) →
      Completes ⟨contract policy, context⟩ ((send policy).code.take n)
        ⟨.ofValues 64 [.address recipient, .int32 index], o⟩
        (fun next => Succeeds (next.registers.getBool cond 0) (· = false)) →
      ∃ position, runFrom ⟨contract policy, context⟩ 0 (send policy).code
        ⟨.ofValues 64 [.address recipient, .int32 index], o⟩ =
          .error (.trap position .notPermitted) := by
    intro n cond hcode hcompletes
    rw [hcode]
    exact exists_trap_of_not_permitted hcompletes
  -- the sender is checked first; the recipient only if the sender may take part
  by_cases hsender : policy.permits (r.listed sender) = true
  · have hboth := And.intro hsender (h.resolve_left (by simp [hsender]))
    cases policy with
    | whitelist =>
        refine hstop 4 4 rfl ?_
        conv => arg 2; cbv
        simpa [hr.reads, hcaller, Policy.permits] using hboth
    | blacklist =>
        refine hstop 6 6 rfl ?_
        conv => arg 2; cbv
        simpa [hr.reads, hcaller, Policy.permits] using hboth
  · cases policy with
    | whitelist =>
        refine hstop 3 3 rfl ?_
        conv => arg 2; cbv
        simpa [hr.reads, hcaller, Policy.permits] using hsender
    | blacklist =>
        refine hstop 5 5 rfl ?_
        conv => arg 2; cbv
        simpa [hr.reads, hcaller, Policy.permits] using hsender

end ContractMachine.AccessList
