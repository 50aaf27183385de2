import ContractMachine.Proofs.AccessList.Runs

/-! Every token of an access list has exactly one holder. -/

namespace ContractMachine.AccessList

/-- After every run there are as many tokens as were issued. Each has one unit, which is all
issued and which one account holds; no balance of any other token is kept. -/
theorem every_token_has_one_holder {policy : Policy} {context : Context} {args : List Value}
    {d : Deployment Store}
    (h : Deployment.deploy (valid policy) ({} : Store) context args = .ok d) (calls : List Call) :
    let s := (d.after calls).store
    s.view.tokenCount.toNat = Deployment.timesInvoked issueId (d.history calls) ∧
    (∀ i < s.view.tokenCount,
      (∃ description, s.view.token i = some ⟨1, 1, description, 1⟩) ∧
      ∃ holder, ∀ account, s.view.balance i account = if account = holder then 1 else 0) ∧
    ∀ i, s.view.tokenCount ≤ i →
      s.view.token i = none ∧ ∀ account, s.balances.get? ⟨i, account⟩ = none := by
  obtain ⟨r, s, hafter, hr, hissued⟩ := records_after
    (I := fun r past => r.deeds.length = Deployment.timesInvoked issueId past)
    (fun _ => rfl)
    (fun r past s c change hissued hpermits => by
      rw [Registry.length_changed hpermits, hissued, Deployment.timesInvoked_concat])
    h calls
  simp only [hafter]
  refine ⟨hr.tokenCount.trans hissued, fun i hi => ?_, fun i hi => ?_⟩
  · rw [UInt32.lt_iff_toNat_lt, hr.tokenCount] at hi
    have hdeed := List.getElem?_eq_getElem hi
    -- the register entry of the token names its holder
    refine ⟨⟨_, (hr.token i).trans (congrArg _ hdeed)⟩, r.deeds[i.toNat].holder, fun account => ?_⟩
    rw [hr.balance, Registry.balance, Registry.holder?, hdeed]
    simp [eq_comm]
  · rw [UInt32.le_iff_toNat_le, hr.tokenCount] at hi
    have hnone := List.getElem?_eq_none hi
    exact ⟨(hr.token i).trans (congrArg _ hnone), fun account => hr.issued i account hi⟩

/-- The theorem at a token that was sent on: the recipient holds it, and nobody else does. -/
theorem passed_token_has_one_holder :
    ∃ d, Sample.deployed = .ok d ∧
      Deployment.timesInvoked issueId (d.history Sample.passing) = 1 ∧
      ∀ account, (d.after Sample.passing).store.view.balance 0 account =
        if account = Sample.friend then 1 else 0 := by
  obtain ⟨d, hd, hcount, hfriend⟩ := Sample.exists_deployed
  obtain ⟨hissued, htokens, -⟩ := every_token_has_one_holder hd Sample.passing
  rw [hcount] at hissued htokens
  obtain ⟨-, holder, hholder⟩ := htokens 0 (by decide)
  have hsame : Sample.friend = holder := by
    by_contra hother
    rw [hholder, if_neg hother] at hfriend
    exact absurd hfriend (by decide)
  subst hsame
  exact ⟨d, hd, hissued.symm, hholder⟩

end ContractMachine.AccessList
