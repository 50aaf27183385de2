import ContractMachine.Proofs.Pool.Custody

/-! Shares that can be redeemed are covered by the supply that they are redeemed against, because
the opening gives out all shares but the locked minimum. A minimum below zero would give out more
shares than there are. -/

namespace ContractMachine.Pool

namespace Book

variable {b : Book}

/-- Shares are taken out, never put back. -/
theorem sharesTaken_nonneg {s : Store} (hb : b.Shows s.view) {call : Call} {ps : List Posting}
    (h : b.Permits call ps) : 0 ≤ sharesTaken (⟨valid, s⟩, call) := by
  cases h with
  | withdraw role positive covered =>
      rw [sharesTaken_withdraw hb]
      split
      · exact positive.le
      · exact le_rfl
  | _ => exact le_rfl

/-- The accounts of a run of a pool that locks this minimum. -/
structure Locks (minimum : Int) (b : Book) (past : List (Deployment Store × Call)) : Prop
    extends b.Accounted past where
  minimum_eq : b.minimum = minimum
  taken_nonneg : 0 ≤ Deployment.tally sharesTaken past

theorem locks_initial (maker : Address) (token : Asset → TokenId) (minimum : Int) :
    (initial maker token minimum).Locks minimum [] :=
  ⟨accounted_initial maker token minimum, rfl, le_rfl⟩

namespace Locks

variable {minimum : Int} {past : List (Deployment Store × Call)}

theorem posted (hb : b.Locks minimum past) {s : Store} (hrecords : b.Records s) {call : Call}
    {ps : List Posting} (h : b.Permits call ps) :
    (b.posted ps).Locks minimum (past ++ [(⟨valid, s⟩, call)]) where
  toAccounted := hb.toAccounted.posted hrecords h
  minimum_eq := (minimum_posted b ps).trans hb.minimum_eq
  taken_nonneg := by
    rw [Deployment.tally_concat]
    exact Int.add_nonneg hb.taken_nonneg (sharesTaken_nonneg hrecords.toShows h)

/-- In an open pool the locked shares and those in escrow are part of the supply. -/
theorem escrowed_add_le (hb : b.Locks minimum past) (henabled : b.enabled = true) :
    b.escrowed .liquidity + minimum ≤ b.supply := by
  have hsupply := hb.shares henabled
  have htaken := hb.taken_nonneg
  have hminimum := hb.minimum_eq
  omega

theorem escrowed_le (hb : b.Locks minimum past) (hminimum : 0 ≤ minimum) :
    b.escrowed .liquidity ≤ b.supply := by
  cases henabled : b.enabled with
  | true =>
      have hcover := hb.escrowed_add_le henabled
      omega
  | false =>
      obtain ⟨-, -, -, hescrowed, -⟩ := hb.closed henabled
      rw [hescrowed]
      exact hb.nonneg.supply

end Locks

end Book

/-- In every state that a pool with a locked minimum of zero or more reaches, the shares in escrow
are at most the supply. Whatever the minimum, in an open pool both together are. -/
theorem escrowed_shares_covered {context : Context} {token : Asset → TokenId} {minimum : Int64}
    {d : Deployment Store}
    (h : Deployment.deploy valid ({} : Store) context (initArgs token minimum) = .ok d)
    (calls : List Call) :
    let s := (d.after calls).store
    ∃ supply : Int64, s.view.var totalSupplyVar = some (.amount supply) ∧
      (0 ≤ minimum.toInt → s.total escrowLiquidityMap ≤ supply.toInt) ∧
      (s.view.var swapEnabledVar = some (.boolean true) →
        s.total escrowLiquidityMap + minimum.toInt ≤ supply.toInt) := by
  obtain ⟨maker, initialToken, initialMinimum, -, hargs, hcontract, hrecords, -⟩ :=
    records_of_deploy h
  obtain rfl : minimum = initialMinimum := by
    simp only [initArgs, List.cons.injEq, Value.amount.injEq] at hargs
    exact hargs.2.2.2.1
  obtain ⟨contract, start⟩ := d
  obtain rfl : contract = valid := hcontract
  obtain ⟨b, s, hafter, hb, hlocks⟩ := records_run (I := fun b _ past => b.Locks minimum.toInt past)
    hrecords (Book.locks_initial ..)
    (fun b past s c ps hb hrecords hpermits => hb.posted hrecords hpermits) calls
  rw [hafter]
  obtain ⟨-, henabled, -, -, -, hsupply, -⟩ := hb.toShows.reads
  have htotal : s.total escrowLiquidityMap = b.escrowed .liquidity := hb.escrowed .liquidity
  refine ⟨.ofInt b.supply, hsupply, ?_, ?_⟩ <;> rw [htotal, hb.bounded.supply.toInt_ofInt]
  · exact hlocks.escrowed_le
  · intro hopen
    rw [show s.view.var swapEnabledVar = _ from henabled] at hopen
    exact hlocks.escrowed_add_le (Value.boolean.inj (Option.some.inj hopen))

/-- The theorem at a pool that locks ten shares. -/
theorem shares_covered_in_sample_pool :
    ∃ d, Sample.deployed = .ok d ∧
      ∃ supply : Int64, (d.after Sample.opening).store.view.var totalSupplyVar =
          some (.amount supply) ∧
        (d.after Sample.opening).store.total escrowLiquidityMap ≤ supply.toInt := by
  obtain ⟨d, hd, -⟩ := Sample.exists_deployed
  have hdeploy : Deployment.deploy valid ({} : Store) (.signedBy Sample.maker)
      (initArgs Sample.token 10) = .ok d := hd
  obtain ⟨supply, hsupply, hcovered, -⟩ := escrowed_shares_covered hdeploy Sample.opening
  exact ⟨d, hd, supply, hsupply, hcovered (by decide)⟩

/-- A pool may be deployed with a minimum of minus one. Its opening makes one share and gives out
two. -/
theorem negative_minimum_overissues :
    let calls : List Call :=
      [.deposit (Sample.token .a) Sample.maker 1 {}, .deposit (Sample.token .b) Sample.maker 1 {},
        .deposit (Sample.token .liquidity) Sample.maker 1 {},
        .invoke setSwapId (.signedBy Sample.maker) [.amount 1, .amount 1]]
    ∃ d : Deployment Store,
      Deployment.deploy valid {} (.signedBy Sample.maker) (initArgs Sample.token (-1)) = .ok d ∧
        (d.after calls).store.view.var totalSupplyVar = some (.amount 1) ∧
        (d.after calls).store.total escrowLiquidityMap = 2 := by
  intro calls
  have hcheck : (match Deployment.deploy valid ({} : Store) (.signedBy Sample.maker)
        (initArgs Sample.token (-1)) with
      | .ok d => decide ((d.after calls).store.view.var totalSupplyVar = some (.amount 1)) &&
          decide ((d.after calls).store.total escrowLiquidityMap = 2)
      | .error _ => false) = true := by decide +kernel
  cases hd : Deployment.deploy valid ({} : Store) (.signedBy Sample.maker)
      (initArgs Sample.token (-1)) with
  | error e => simp [hd] at hcheck
  | ok d =>
      simp only [hd, Bool.and_eq_true, decide_eq_true_eq] at hcheck
      exact ⟨d, rfl, hcheck⟩

end ContractMachine.Pool
