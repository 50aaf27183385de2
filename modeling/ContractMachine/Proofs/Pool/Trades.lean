import ContractMachine.Proofs.Magnitudes
import ContractMachine.Proofs.Pool.Settlement
import ContractMachine.Proofs.Typing.Soundness

/-! The terms on which a pool trades. The prices are such that the product of the reserves is kept,
so the assertion with which a trade ends its checks never fails. -/

namespace ContractMachine

/-- Where the last assertion of a body stands. -/
def Function.lastAssertion? (f : Function) : Option Nat :=
  (List.range f.code.length).reverse.find? fun k =>
    match f.code[k]? with
    | some (.assertTrue _) => true
    | _ => false

namespace Pool

namespace Book

/-! ### Prices -/

/-- What an amount of B costs: its price in A, rounded down, and one more. -/
def cost (b : Book) (amountOut : Int) : Int :=
  b.reserve .a * amountOut * 1000 / ((b.reserve .b - amountOut) * 997) + 1

/-- What an amount of A fetches: its price in B, rounded down. -/
def proceeds (b : Book) (amountIn : Int) : Int :=
  amountIn * 997 * b.reserve .b / (b.reserve .a * 1000 + amountIn * 997)

/-- What goes out is worth no more than what comes in, less the fee. -/
def Fair (b : Book) (amountIn amountOut : Int) : Prop :=
  amountOut * (b.reserve .a * 1000 + amountIn * 997) ≤ amountIn * 997 * b.reserve .b

variable {b : Book}

theorem Fair.keepsProduct {amountIn amountOut : Int} (h : b.Fair amountIn amountOut) :
    b.KeepsProduct amountIn amountOut := by
  rw [Fair] at h
  rw [KeepsProduct]
  linarith

theorem fair_cost {amountOut : Int} (hlt : amountOut < b.reserve .b) :
    b.Fair (b.cost amountOut) amountOut := by
  have hdivisor : 0 < (b.reserve .b - amountOut) * 997 := by omega
  have hcost : b.reserve .a * amountOut * 1000 <
      b.cost amountOut * ((b.reserve .b - amountOut) * 997) :=
    Int.lt_ediv_add_one_mul_self _ hdivisor
  rw [Fair]
  linarith

theorem fair_proceeds {amountIn : Int} (hdivisor : 0 < b.reserve .a * 1000 + amountIn * 997) :
    b.Fair amountIn (b.proceeds amountIn) :=
  Int.ediv_mul_le _ hdivisor.ne'

theorem keepsProduct_cost {amountOut : Int} (hlt : amountOut < b.reserve .b) :
    b.KeepsProduct (b.cost amountOut) amountOut :=
  (fair_cost hlt).keepsProduct

theorem Backed.reserves_nonneg (hb : b.Backed) : 0 ≤ b.reserve .a ∧ 0 ≤ b.reserve .b := by
  rcases hb.live_or_empty with ⟨hA, hB, -⟩ | ⟨hA, hB, -⟩
  · exact ⟨hA.le, hB.le⟩
  · exact ⟨hA.ge, hB.ge⟩

theorem Backed.cost_eq (hb : b.Backed) {amountOut : Int} (hout : 0 < amountOut) :
    b.cost amountOut =
      (b.reserve .a * amountOut * 1000).tdiv ((b.reserve .b - amountOut) * 997) + 1 := by
  have hnumerator := Int.mul_nonneg hb.reserves_nonneg.1 hout.le
  rw [cost, Int.tdiv_eq_ediv_of_nonneg (by omega)]

theorem Backed.cost_pos (hb : b.Backed) {amountOut : Int} (hout : 0 < amountOut)
    (hlt : amountOut < b.reserve .b) : 0 < b.cost amountOut := by
  have hnumerator := Int.mul_nonneg hb.reserves_nonneg.1 hout.le
  have hquotient := Int.ediv_nonneg (show 0 ≤ b.reserve .a * amountOut * 1000 by omega)
    (show 0 ≤ (b.reserve .b - amountOut) * 997 by omega)
  rw [cost]
  omega

theorem Backed.divisor_pos (hb : b.Backed) {amountIn : Int} (hin : 0 < amountIn) :
    0 < b.reserve .a * 1000 + amountIn * 997 := by
  have hreserve := hb.reserves_nonneg.1
  omega

theorem Backed.keepsProduct_proceeds (hb : b.Backed) {amountIn : Int} (hin : 0 < amountIn) :
    b.KeepsProduct amountIn (b.proceeds amountIn) :=
  (fair_proceeds (hb.divisor_pos hin)).keepsProduct

theorem Backed.proceeds_eq (hb : b.Backed) {amountIn : Int} (hin : 0 < amountIn) :
    b.proceeds amountIn =
      (amountIn * 997 * b.reserve .b).tdiv (b.reserve .a * 1000 + amountIn * 997) := by
  have hnumerator := Int.mul_nonneg (show 0 ≤ amountIn * 997 by omega) hb.reserves_nonneg.2
  rw [proceeds, Int.tdiv_eq_ediv_of_nonneg hnumerator]

/-! ### Terms -/

/-- The terms of every trade, whichever of the amounts is given. -/
structure TradeTerms (b : Book) (context : Context) (deadline : Int64) (amountIn amountOut : Int)
    (account : Address) : Prop where
  enabled : b.enabled = true
  timely : context.Timely deadline
  caller : context.caller = some account
  positive : 0 < amountOut
  out_lt : amountOut < b.reserve .b
  covered : amountIn ≤ b.escrow .a account
  credit : IsAmount (b.escrow .b account + amountOut)
  fits : IsAmount (b.reserve .a + amountIn)

variable {context : Context} {deadline amountIn amountOut : Int64} {account : Address}

theorem Trades.tradeTerms (hbounded : b.Bounded)
    (h : b.Trades context deadline account amountIn amountOut) :
    b.TradeTerms context deadline amountIn.toInt amountOut.toInt account :=
  { h with
    positive := h.positiveOut
    credit := (hbounded.escrow _ _).add h.positiveOut h.credit
    fits := (hbounded.reserve _).add h.positiveIn h.fits }

theorem TradeTerms.trades
    (h : b.TradeTerms context deadline amountIn.toInt amountOut.toInt account)
    (hin : 0 < amountIn.toInt) (hkeeps : b.KeepsProduct amountIn.toInt amountOut.toInt) :
    b.Trades context deadline account amountIn amountOut :=
  { h with
    positiveIn := hin
    positiveOut := h.positive
    product := hkeeps
    credit := h.credit.2
    fits := h.fits.2 }

theorem follows_swapForExact {s : Store} (hrecords : b.Records s) (hb : b.Backed)
    (context : Context) (amountOut maxIn deadline : Int64) :
    b.Follows ⟨valid, s⟩
      (.invoke swapForExactId context [.amount amountOut, .amount maxIn, .timestamp deadline])
      (fun account => b.TradeTerms context deadline (b.cost amountOut.toInt) amountOut.toInt
        account ∧ b.cost amountOut.toInt ≤ maxIn.toInt)
      fun account => b.trading account (b.cost amountOut.toInt) amountOut.toInt := by
  refine hrecords.follows fun ps => permits_swapForExact_iff.trans ?_
  constructor
  · rintro ⟨account, amountIn, h, rfl⟩
    rw [hb.cost_eq h.positiveOut, ← h.price]
    exact ⟨account, ⟨h.toTrades.tradeTerms hrecords.bounded, h.le_maxIn⟩, rfl⟩
  · rintro ⟨account, ⟨hterms, hle⟩, rfl⟩
    have hpos := hb.cost_pos hterms.positive hterms.out_lt
    have hkeeps := keepsProduct_cost hterms.out_lt
    have hmax := maxIn.toInt_lt
    obtain ⟨amountIn, hcost⟩ : ∃ n : Int64, n.toInt = b.cost amountOut.toInt :=
      IsAmount.exists_toInt ⟨by omega, by omega⟩
    have hprice := hcost.trans (hb.cost_eq hterms.positive)
    rw [← hcost] at hterms hle hpos hkeeps ⊢
    refine ⟨account, amountIn, ?_, rfl⟩
    exact { hterms.trades hpos hkeeps with price := hprice, le_maxIn := hle }

theorem follows_swapExact {s : Store} (hrecords : b.Records s) (hb : b.Backed)
    (context : Context) (amountIn minOut deadline : Int64) :
    b.Follows ⟨valid, s⟩
      (.invoke swapExactId context [.amount amountIn, .amount minOut, .timestamp deadline])
      (fun account => b.TradeTerms context deadline amountIn.toInt (b.proceeds amountIn.toInt)
        account ∧ 0 < amountIn.toInt ∧ minOut.toInt ≤ b.proceeds amountIn.toInt)
      fun account => b.trading account amountIn.toInt (b.proceeds amountIn.toInt) := by
  refine hrecords.follows fun ps => permits_swapExact_iff.trans ?_
  constructor
  · rintro ⟨account, amountOut, h, rfl⟩
    rw [hb.proceeds_eq h.positiveIn, ← h.price]
    exact ⟨account, ⟨h.toTrades.tradeTerms hrecords.bounded, h.positiveIn, h.minOut_le⟩, rfl⟩
  · rintro ⟨account, ⟨hterms, hin, hle⟩, rfl⟩
    have hdivisor := hb.divisor_pos hin
    have hkeeps := hb.keepsProduct_proceeds hin
    have hpos := hterms.positive
    have hlt := hterms.out_lt
    have hmax := (hrecords.bounded.reserve .b).2
    obtain ⟨amountOut, hproceeds⟩ : ∃ n : Int64, n.toInt = b.proceeds amountIn.toInt :=
      IsAmount.exists_toInt ⟨by omega, by omega⟩
    have hprice := hproceeds.trans (hb.proceeds_eq hin)
    rw [← hproceeds] at hterms hle hkeeps ⊢
    refine ⟨account, amountOut, ?_, rfl⟩
    exact
      { hterms.trades hin hkeeps with divisor := hdivisor.ne', price := hprice, minOut_le := hle }

end Book

/-! ### Where a trade is stopped -/

theorem function?_id : ∀ f ∈ functions, valid.function? f.id = some f := by
  simp only [functions, List.forall_mem_cons]
  exact ⟨rfl, rfl, rfl, rfl, rfl, rfl, List.forall_mem_nil _⟩

/-- A call that is stopped at an instruction was stopped while its body ran. -/
theorem runFrom_of_invoke {s : Store} {f : Function} (hf : f ∈ functions) {context : Context}
    {args : List Value} {position : Nat} {cause : Trap}
    (h : (Deployment.mk valid s).invoke f.id context args = .error (.trap position cause)) :
    f.Accepts args ∧
      Machine.runFrom ⟨contract, context⟩ 0 f.code ⟨.ofValues 64 args, { base := s.view }⟩ =
        .error (.trap position cause) := by
  have hparams := params_le f hf
  refine Function.run_eq_trap (Nat.le_min.mpr ⟨hparams, hparams.trans (by decide)⟩) ?_
  rw [Deployment.invoke, function?_id f hf] at h
  simp only [Deployment.call, Function.call] at h
  split at h
  · cases h
  · rename_i e herror
    cases h
    split at herror
    · cases herror
    · rename_i e hrun
      cases herror
      exact hrun

theorem lastAssertion?_swapForExact : swapForExact.lastAssertion? = some 41 := by decide +kernel

theorem lastAssertion?_swapExact : swapExact.lastAssertion? = some 41 := by decide +kernel

theorem exists_tradeArgs {args : List Value}
    (h : args.map Value.type = [.amount, .amount, .timestamp]) :
    ∃ x y t, args = [.amount x, .amount y, .timestamp t] := by
  simpa [List.map_eq_cons_iff, type_eq_amount_iff, type_eq_timestamp_iff] using h

variable {b : Book} {s : Store} {context : Context} {args : List Value} {position : Nat}
  {cause : Trap}

theorem swapForExact_passes (hb : b.Shows s.view) (hbacked : b.Backed)
    (h : (Deployment.mk valid s).invoke swapForExactId context args =
      .error (.trap position cause)) : swapForExact.lastAssertion? ≠ some position := by
  rw [lastAssertion?_swapForExact]
  rintro ⟨⟩
  obtain ⟨⟨htypes, -⟩, hrun⟩ := runFrom_of_invoke (f := swapForExact) (by decide) h
  obtain ⟨amountOut, maxIn, deadline, rfl⟩ := exists_tradeArgs htypes
  refine not_stopped_swapForExact (o := { base := s.view }) hb amountOut maxIn deadline ?_
    (Machine.completes_of_failed_assertion hrun rfl)
  intro amountIn hout hlt hprice
  rw [hprice, ← hbacked.cost_eq hout]
  exact Book.keepsProduct_cost hlt

theorem swapExact_passes (hb : b.Shows s.view) (hbacked : b.Backed)
    (h : (Deployment.mk valid s).invoke swapExactId context args =
      .error (.trap position cause)) : swapExact.lastAssertion? ≠ some position := by
  rw [lastAssertion?_swapExact]
  rintro ⟨⟩
  obtain ⟨⟨htypes, -⟩, hrun⟩ := runFrom_of_invoke (f := swapExact) (by decide) h
  obtain ⟨amountIn, minOut, deadline, rfl⟩ := exists_tradeArgs htypes
  refine not_stopped_swapExact (o := { base := s.view }) hb amountIn minOut deadline ?_
    (Machine.completes_of_failed_assertion hrun rfl)
  intro amountOut hin hprice _ _
  rw [hprice, ← hbacked.proceeds_eq hin]
  exact hbacked.keepsProduct_proceeds hin

theorem allSized_swaps : ∀ f ∈ [swapForExact, swapExact],
    Instruction.allSized ∅ f.code = true := by
  decide +kernel

/-- In every state that a deployed pool reaches, a trade goes through if and only if its terms are
met, and nothing changes but what the entries say. The product of the reserves is kept at every
price, so no trade is stopped at its last assertion, nor by a big integer that is too long. -/
theorem trades_follow_terms {context : Context} {args : List Value} {d : Deployment Store}
    (h : Deployment.deploy valid ({} : Store) context args = .ok d) (calls : List Call) :
    ∃ b : Book, b.Records (d.after calls).store ∧
      (∀ (context : Context) (amountOut maxIn deadline : Int64),
        b.Follows (d.after calls)
          (.invoke swapForExactId context [.amount amountOut, .amount maxIn, .timestamp deadline])
          (fun account => b.TradeTerms context deadline (b.cost amountOut.toInt) amountOut.toInt
            account ∧ b.cost amountOut.toInt ≤ maxIn.toInt)
          fun account => b.trading account (b.cost amountOut.toInt) amountOut.toInt) ∧
      (∀ (context : Context) (amountIn minOut deadline : Int64),
        b.Follows (d.after calls)
          (.invoke swapExactId context [.amount amountIn, .amount minOut, .timestamp deadline])
          (fun account => b.TradeTerms context deadline amountIn.toInt
            (b.proceeds amountIn.toInt) account ∧
              0 < amountIn.toInt ∧ minOut.toInt ≤ b.proceeds amountIn.toInt)
          fun account => b.trading account amountIn.toInt (b.proceeds amountIn.toInt)) ∧
      (∀ amountOut < b.reserve .b, b.KeepsProduct (b.cost amountOut) amountOut) ∧
      (∀ amountIn > 0, b.KeepsProduct amountIn (b.proceeds amountIn)) ∧
      ∀ f ∈ [swapForExact, swapExact], ∀ context args position cause,
        (d.after calls).invoke f.id context args = .error (.trap position cause) →
          f.lastAssertion? ≠ some position ∧
          (cause = .overflow → ∀ op x y dest,
            f.code[position]? ≠ some (.binary op x y dest)) := by
  obtain ⟨b, s, hafter, hrecords, hb⟩ := exists_backed h calls
  rw [hafter]
  refine ⟨b, hrecords, fun context _ _ _ => Book.follows_swapForExact hrecords hb context _ _ _,
    fun context _ _ _ => Book.follows_swapExact hrecords hb context _ _ _,
    fun _ => Book.keepsProduct_cost, fun _ => hb.keepsProduct_proceeds, ?_⟩
  intro f hf context args position cause htrap
  constructor
  · simp only [List.mem_cons, List.not_mem_nil, or_false] at hf
    rcases hf with rfl | rfl
    · exact swapForExact_passes hrecords.toShows hb htrap
    · exact swapExact_passes hrecords.toShows hb htrap
  · rintro rfl
    have hmem : f ∈ functions := by
      simp only [List.mem_cons, List.not_mem_nil, or_false] at hf
      rcases hf with rfl | rfl <;> decide
    exact Machine.overflow_not_binary (allSized_swaps f hf) (runFrom_of_invoke hmem htrap).2

/-- A purchase of what the sample trade fetches. -/
def Sample.purchase : Call :=
  .invoke swapForExactId { caller := some maker, timestamp := some 5 }
    [.amount 47, .amount 100, .timestamp 9]

theorem sample_pool_trades :
    ∃ d sold bought, ∃ b : Book, Sample.deployed = .ok d ∧
      (d.after Sample.opening).perform Sample.trade = .ok sold ∧
      (d.after Sample.opening).perform Sample.purchase = .ok bought ∧
      b.Records (d.after Sample.opening).store ∧
      b.Settles (d.after Sample.opening) sold (b.trading Sample.maker 100 47) ∧
      b.Settles (d.after Sample.opening) bought (b.trading Sample.maker 99 47) := by
  obtain ⟨d, sold, hd, hsold⟩ := Sample.exists_next Sample.trade (by decide +kernel)
  obtain ⟨d', bought, hd', hbought⟩ := Sample.exists_next Sample.purchase (by decide +kernel)
  obtain rfl : d = d' := Except.ok.inj (hd.symm.trans hd')
  obtain ⟨b, hrecords, hbuys, hsells, -⟩ := trades_follow_terms hd Sample.opening
  obtain ⟨hA, hB, -⟩ := Sample.opening_numbers hd hrecords
  have hproceeds : b.proceeds (100 : Int64).toInt = 47 := by
    rw [Book.proceeds, hA, hB]
    decide
  have hcost : b.cost (47 : Int64).toInt = 99 := by
    rw [Book.cost, hA, hB]
    decide
  let context : Context := { caller := some Sample.maker, timestamp := some 5 }
  obtain ⟨seller, ⟨hterms, -⟩, hsell⟩ := (hsells context 100 1 9).settles sold hsold
  obtain ⟨buyer, ⟨hterms', -⟩, hbuy⟩ := (hbuys context 47 100 9).settles bought hbought
  obtain rfl : Sample.maker = seller := Option.some.inj hterms.caller
  obtain rfl : Sample.maker = buyer := Option.some.inj hterms'.caller
  rw [hproceeds] at hsell
  rw [hcost] at hbuy
  exact ⟨d, sold, bought, b, hd, hsold, hbought, hrecords, hsell, hbuy⟩

end Pool

end ContractMachine
