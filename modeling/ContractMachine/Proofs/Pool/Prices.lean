import ContractMachine.Proofs.Pool.Trades
import Mathlib.Order.Bounds.Basic

/-! The two prices of a pool agree. What an amount of B costs is enough to fetch it, and the least
amount of A that is enough is the cost or one less; it is one less where the price comes out
even, since the cost then adds one to a quotient that was not rounded. -/

namespace ContractMachine.Pool

namespace Book

variable {b : Book} {amountIn amountOut : Int}

/-- An amount is fetched exactly if that is fair. -/
theorem le_proceeds_iff (hdivisor : 0 < b.reserve .a * 1000 + amountIn * 997) :
    amountOut ≤ b.proceeds amountIn ↔ b.Fair amountIn amountOut :=
  Int.le_ediv_iff_mul_le hdivisor

/-- Fairness in the terms of the cost: what comes in makes up for the price of what goes out. -/
theorem fair_iff : b.Fair amountIn amountOut ↔
    b.reserve .a * amountOut * 1000 ≤ amountIn * ((b.reserve .b - amountOut) * 997) := by
  rw [Fair]
  constructor <;> intro h <;> linarith

theorem fair_of_cost_le (hlt : amountOut < b.reserve .b) (h : b.cost amountOut ≤ amountIn) :
    b.Fair amountIn amountOut := by
  have hdivisor : 0 ≤ (b.reserve .b - amountOut) * 997 := by omega
  refine fair_iff.mpr ?_
  calc b.reserve .a * amountOut * 1000
      ≤ b.cost amountOut * ((b.reserve .b - amountOut) * 997) := fair_iff.mp (fair_cost hlt)
    _ ≤ amountIn * ((b.reserve .b - amountOut) * 997) :=
        Int.mul_le_mul_of_nonneg_right h hdivisor

/-- The quotient in the cost is at most the price, so what is below it does not make up for it. -/
theorem not_fair_of_le (hlt : amountOut < b.reserve .b) (h : amountIn ≤ b.cost amountOut - 2) :
    ¬b.Fair amountIn amountOut := by
  have hdivisor : 0 < (b.reserve .b - amountOut) * 997 := by omega
  have hquotient : (b.cost amountOut - 1) * ((b.reserve .b - amountOut) * 997) ≤
      b.reserve .a * amountOut * 1000 := by
    rw [cost, Int.add_sub_cancel]
    exact Int.ediv_mul_le _ hdivisor.ne'
  rw [fair_iff, not_le]
  calc amountIn * ((b.reserve .b - amountOut) * 997)
      < (b.cost amountOut - 1) * ((b.reserve .b - amountOut) * 997) :=
        Int.mul_lt_mul_of_pos_right (by omega) hdivisor
    _ ≤ b.reserve .a * amountOut * 1000 := hquotient

theorem Backed.le_proceeds_of_cost_le (hb : b.Backed) (hlt : amountOut < b.reserve .b)
    (hin : 0 < amountIn) (h : b.cost amountOut ≤ amountIn) : amountOut ≤ b.proceeds amountIn :=
  (le_proceeds_iff (hb.divisor_pos hin)).mpr (fair_of_cost_le hlt h)

theorem Backed.proceeds_lt_of_le (hb : b.Backed) (hlt : amountOut < b.reserve .b)
    (hin : 0 < amountIn) (h : amountIn ≤ b.cost amountOut - 2) :
    b.proceeds amountIn < amountOut := by
  rw [← not_le, le_proceeds_iff (hb.divisor_pos hin)]
  exact not_fair_of_le hlt h

/-- The amounts of A that are enough to fetch an amount of B. -/
def sufficient (b : Book) (amountOut : Int) : Set Int :=
  {amountIn | 0 < amountIn ∧ amountOut ≤ b.proceeds amountIn}

theorem Backed.exists_isLeast_sufficient (hb : b.Backed) (hout : 0 < amountOut)
    (hlt : amountOut < b.reserve .b) :
    ∃ least, IsLeast (b.sufficient amountOut) least ∧
      (b.cost amountOut = least ∨ b.cost amountOut = least + 1) := by
  have hpos := hb.cost_pos hout hlt
  have hcost : b.cost amountOut ∈ b.sufficient amountOut :=
    ⟨hpos, hb.le_proceeds_of_cost_le hlt hpos le_rfl⟩
  have hbound : ∀ amountIn ∈ b.sufficient amountOut, b.cost amountOut - 1 ≤ amountIn := by
    rintro amountIn ⟨hin, hle⟩
    by_contra hbelow
    exact absurd hle (not_le.mpr (hb.proceeds_lt_of_le hlt hin (by omega)))
  by_cases hless : b.cost amountOut - 1 ∈ b.sufficient amountOut
  · exact ⟨b.cost amountOut - 1, ⟨hless, hbound⟩, .inr (by omega)⟩
  · refine ⟨b.cost amountOut, ⟨hcost, fun amountIn hin => ?_⟩, .inl rfl⟩
    have hne : amountIn ≠ b.cost amountOut - 1 := fun heq => hless (heq ▸ hin)
    have hle := hbound amountIn hin
    omega

theorem escrows_trading (b : Book) (account : Address) (amountIn amountOut : Int) :
    (b.posted (b.trading account amountIn amountOut)).escrow .a account =
      b.escrow .a account - amountIn ∧
    (b.posted (b.trading account amountIn amountOut)).escrow .b account =
      b.escrow .b account + amountOut := by
  simp [posted, post, trading]

end Book

/-- From every state that a deployed pool reaches and for every amount of B that can be bought
there, a sale of at least what the purchase charges pays at least that amount, and a sale of two
less, or of any amount below that, pays less. The charge is the least amount that is enough, or one
more. -/
theorem prices_agree {context : Context} {args : List Value} {d : Deployment Store}
    (h : Deployment.deploy valid ({} : Store) context args = .ok d) (calls : List Call)
    {buyer : Context} {amountOut maxIn deadline : Int64} {bought : Deployment Store}
    (hbuy : (d.after calls).perform (.invoke swapForExactId buyer
      [.amount amountOut, .amount maxIn, .timestamp deadline]) = .ok bought) :
    ∃ account, buyer.caller = some account ∧
      let charged := escrowOf (d.after calls) .a account - escrowOf bought .a account
      (∀ seller amountIn minOut deadline sold,
        (d.after calls).perform (.invoke swapExactId seller
          [.amount amountIn, .amount minOut, .timestamp deadline]) = .ok sold →
        ∃ account, seller.caller = some account ∧
          let paid := escrowOf sold .b account - escrowOf (d.after calls) .b account
          (charged ≤ amountIn.toInt → amountOut.toInt ≤ paid) ∧
            (amountIn.toInt ≤ charged - 2 → paid < amountOut.toInt)) ∧
      ∃ b : Book, b.Records (d.after calls).store ∧
        ∃ least, IsLeast (b.sufficient amountOut.toInt) least ∧
          (charged = least ∨ charged = least + 1) := by
  obtain ⟨b, s, hafter, hrecords, hb⟩ := exists_backed h calls
  rw [hafter] at hbuy ⊢
  have hbefore := hrecords.escrowOf_eq (d := ⟨valid, s⟩)
  obtain ⟨account, ⟨hterms, -⟩, hbought⟩ :=
    (Book.follows_swapForExact hrecords hb buyer amountOut maxIn deadline).settles bought hbuy
  have hcharged : escrowOf ⟨valid, s⟩ .a account - escrowOf bought .a account =
      b.cost amountOut.toInt := by
    rw [hbefore, hbought.records.escrowOf_eq, (b.escrows_trading account _ _).1, sub_sub_cancel]
  refine ⟨account, hterms.caller, ?_⟩
  simp only [hcharged]
  refine ⟨?_, b, hrecords, hb.exists_isLeast_sufficient hterms.positive hterms.out_lt⟩
  intro seller amountIn minOut deadline sold hsell
  obtain ⟨account, ⟨hsale, hin, -⟩, hsold⟩ :=
    (Book.follows_swapExact hrecords hb seller amountIn minOut deadline).settles sold hsell
  have hpaid : escrowOf sold .b account - escrowOf ⟨valid, s⟩ .b account =
      b.proceeds amountIn.toInt := by
    rw [hbefore, hsold.records.escrowOf_eq, (b.escrows_trading account _ _).2,
      add_sub_cancel_left]
  refine ⟨account, hsale.caller, ?_⟩
  simp only [hpaid]
  exact ⟨hb.le_proceeds_of_cost_le hterms.out_lt hin, hb.proceeds_lt_of_le hterms.out_lt hin⟩

/-- A sale of an amount of A to the open pool. -/
def Sample.sale (amountIn : Int64) : Call :=
  .invoke swapExactId { caller := some maker, timestamp := some 5 }
    [.amount amountIn, .amount 1, .timestamp 9]

/-- The theorem at a purchase that is charged 99, and at sales of as much and of two less. -/
theorem sample_prices_agree :
    ∃ d bought enough less, Sample.deployed = .ok d ∧
      (d.after Sample.opening).perform Sample.purchase = .ok bought ∧
      (d.after Sample.opening).perform (Sample.sale 99) = .ok enough ∧
      (d.after Sample.opening).perform (Sample.sale 97) = .ok less ∧
      escrowOf (d.after Sample.opening) .a Sample.maker - escrowOf bought .a Sample.maker = 99 ∧
      47 ≤ escrowOf enough .b Sample.maker - escrowOf (d.after Sample.opening) .b Sample.maker ∧
      escrowOf less .b Sample.maker - escrowOf (d.after Sample.opening) .b Sample.maker < 47 := by
  have hleads : Sample.leadsTo Sample.opening Sample.purchase (fun d bought =>
      escrowOf (d.after Sample.opening) .a Sample.maker - escrowOf bought .a Sample.maker = 99) =
        true := by
    decide +kernel
  obtain ⟨d, bought, hd, hbought, hcheck⟩ := Sample.exists_of_leadsTo hleads
  have hcharged := of_decide_eq_true hcheck
  obtain ⟨d', enough, hd', henough⟩ := Sample.exists_next (Sample.sale 99) (by decide +kernel)
  obtain rfl : d = d' := Except.ok.inj (hd.symm.trans hd')
  obtain ⟨d', less, hd', hless⟩ := Sample.exists_next (Sample.sale 97) (by decide +kernel)
  obtain rfl : d = d' := Except.ok.inj (hd.symm.trans hd')
  obtain ⟨buyer, hbuyer, hsales, -⟩ := prices_agree hd Sample.opening hbought
  obtain rfl : Sample.maker = buyer := Option.some.inj hbuyer
  obtain ⟨seller, hseller, hpaid, -⟩ := hsales _ _ _ _ enough henough
  obtain rfl : Sample.maker = seller := Option.some.inj hseller
  obtain ⟨seller, hseller, -, hpaid'⟩ := hsales _ _ _ _ less hless
  obtain rfl : Sample.maker = seller := Option.some.inj hseller
  rw [hcharged] at hpaid hpaid'
  exact ⟨d, bought, enough, less, hd, hbought, henough, hless, hcharged, hpaid (by decide),
    hpaid' (by decide)⟩

end ContractMachine.Pool
