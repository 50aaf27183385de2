import ContractMachine.Proofs.Pool.Bodies

/-! The bodies of both trades follow the rules of the pool. A body checks the call and finds its
price; what then remains is the same for both, up to the registers in which the amounts are. -/

namespace ContractMachine.Pool

open Machine Symbolic

set_option maxRecDepth 4000

variable {b : Book} {o : Overlay} {context : Context} {Q : Overlay → Prop}

/-! ### The exchange -/

/-- The registers in which a trade keeps the reserves and both of its amounts, and the first one
that it has not used yet. -/
structure TradeRegisters where
  reserveA : Register
  reserveB : Register
  bigIn : Register
  bigOut : Register
  amountIn : Register
  amountOut : Register
  next : Register

namespace TradeRegisters

def sale : TradeRegisters := ⟨10, 11, 12, 19, 0, 21, 25⟩

def purchase : TradeRegisters := ⟨11, 12, 22, 13, 24, 0, 26⟩

/-- The last phase of a trade: the product is kept, and the amounts are moved. -/
def exchange (t : TradeRegisters) : List Instruction :=
  Assemble.body t.next do
    requireProduct t.reserveA t.reserveB t.bigIn t.bigOut
    settle t.amountIn t.amountOut

/-- The registers hold this trade with the pool. -/
structure Hold (t : TradeRegisters) (b : Book) (amountIn amountOut : Int64)
    (values : List Value) : Prop where
  reserveA : values[t.reserveA.toNat]? = some (.bigInteger (b.reserve .a))
  reserveB : values[t.reserveB.toNat]? = some (.bigInteger (b.reserve .b))
  bigIn : values[t.bigIn.toNat]? = some (.bigInteger amountIn.toInt)
  bigOut : values[t.bigOut.toNat]? = some (.bigInteger amountOut.toInt)
  amountIn : values[t.amountIn.toNat]? = some (.amount amountIn)
  amountOut : values[t.amountOut.toNat]? = some (.amount amountOut)
  next : values.length = t.next.toNat

end TradeRegisters

section Trades

variable {t : TradeRegisters} {amountIn amountOut : Int64} {values : List Value}

theorem completes_exchange (hb : b.Shows o.view) (ht : t = .sale ∨ t = .purchase)
    (hvalues : t.Hold b amountIn amountOut values) (hout : 0 < amountOut.toInt)
    (hlt : amountOut.toInt < b.reserve .b) :
    Completes ⟨contract, context⟩ t.exchange ⟨.ofValues 64 values, o⟩ (fun m => Q m.overlay) ↔
      b.KeepsProduct amountIn.toInt amountOut.toInt ∧ ∃ account, context.caller = some account ∧
        (0 < amountIn.toInt ∧ amountIn.toInt ≤ b.escrow .a account) ∧
        b.escrow .b account + amountOut.toInt < 9223372036854775808 ∧
        (0 < amountIn.toInt ∧ b.reserve .a + amountIn.toInt < 9223372036854775808) ∧
        Q (o.record ((b.trading account amountIn.toInt amountOut.toInt).map Posting.update)) := by
  have hreserve := fun t => Book.bitBound_of_isAmount (hb.bounded.reserve t)
  obtain ⟨hreserveA, hreserveB, hbigIn, hbigOut, hamountIn, hamountOut, hnext⟩ := hvalues
  -- the bodies differ only in the numbers of their registers
  rcases ht with rfl | rfl <;> conv => lhs; arg 2; cbv
  all_goals
    simp only [TradeRegisters.sale, TradeRegisters.purchase, UInt8.reduceToNat] at *
    simp [-getElem?_pos, hb.reads, hb.bounded.toInt_ofInt, hreserveA, hreserveB, hbigIn, hbigOut,
      hamountIn, hamountOut, hnext, hout, hlt.le, Book.trading, Book.KeepsProduct, and_assoc]

/-- A trade comes to its last assertion and is stopped there just in case the product falls. -/
theorem completes_product (hb : b.Shows o.view) (ht : t = .sale ∨ t = .purchase)
    (hvalues : t.Hold b amountIn amountOut values) :
    Completes ⟨contract, context⟩ (t.exchange.take 13) ⟨.ofValues 64 values, o⟩
        (fun m => ¬Succeeds (m.registers.getBool (t.next + 12) 0) (· = true)) ↔
      ¬b.KeepsProduct amountIn.toInt amountOut.toInt := by
  have hreserve := fun t => Book.bitBound_of_isAmount (hb.bounded.reserve t)
  obtain ⟨hreserveA, hreserveB, hbigIn, hbigOut, -, -, hnext⟩ := hvalues
  rcases ht with rfl | rfl <;> conv => lhs; arg 2; cbv
  all_goals
    simp only [TradeRegisters.sale, TradeRegisters.purchase, UInt8.reduceToNat] at *
    simp [-getElem?_pos, -Bool.not_eq_true, hreserveA, hreserveB, hbigIn, hbigOut, hnext,
      Book.KeepsProduct]

end Trades

/-! ### Sales -/

/-- The price is a positive amount that the pool has, and the caller agrees to it. -/
theorem exists_saleTerms (context : Context) (hb : b.Shows o.view)
    (amountIn minOut deadline now : Int64) :
    ∃ values : Int64 → List Value,
      (∀ amountOut : Int64, amountOut.toInt = (amountIn.toInt * 997 * b.reserve .b).tdiv
          (b.reserve .a * 1000 + amountIn.toInt * 997) →
        TradeRegisters.sale.Hold b amountIn amountOut (values amountOut)) ∧
      ∀ P, Completes ⟨contract, context⟩ ((swapExact.code.drop 4).take 24)
          ⟨.ofValues 64 [.amount amountIn, .amount minOut, .timestamp deadline,
            .boolean b.enabled, .timestamp now], o⟩ P ↔
        0 < amountIn.toInt ∧ b.reserve .a * 1000 + amountIn.toInt * 997 ≠ 0 ∧
          ∃ amountOut : Int64, amountOut.toInt = (amountIn.toInt * 997 * b.reserve .b).tdiv
              (b.reserve .a * 1000 + amountIn.toInt * 997) ∧
            minOut.toInt ≤ amountOut.toInt ∧ 0 < amountOut.toInt ∧
            amountOut.toInt < b.reserve .b ∧ P ⟨.ofValues 64 (values amountOut), o⟩ := by
  have hreserve := fun t => Book.bitBound_of_isAmount (hb.bounded.reserve t)
  refine ⟨?values, ?registers, ?terms⟩
  case terms =>
    intro P
    conv => lhs; arg 2; cbv
    conv => lhs; simp [hb.reads, hb.bounded.toInt_ofInt]
  case registers =>
    intro amountOut hprice
    exact ⟨rfl, rfl, rfl, by rw [hprice]; rfl, rfl, rfl, rfl⟩

theorem completes_swapExact (hb : b.Shows o.view) (amountIn minOut deadline : Int64) :
    Completes ⟨contract, context⟩ swapExact.code
        ⟨.ofValues 64 [.amount amountIn, .amount minOut, .timestamp deadline], o⟩
        (fun m => Q m.overlay) ↔
      ∃ account amountOut, b.Sells context amountIn minOut deadline account amountOut ∧
        Q (o.record ((b.trading account amountIn.toInt amountOut.toInt).map Posting.update)) := by
  have hcode : swapExact.code =
      gate 3 2 ++ ((swapExact.code.drop 4).take 24 ++ TradeRegisters.sale.exchange) := by
    decide +kernel
  rw [hcode, completes_append, completes_gate hb rfl (by decide) rfl]
  constructor
  · rintro ⟨enabled, now, time, timely, hrest⟩
    obtain ⟨values, hvalues, hterms⟩ :=
      exists_saleTerms context hb amountIn minOut deadline now
    rw [completes_append] at hrest
    obtain ⟨positiveIn, divisor, amountOut, price, minOut_le, positiveOut, out_lt, hrest⟩ :=
      (hterms _).mp hrest
    obtain ⟨product, account, caller, ⟨-, covered⟩, credit, ⟨-, fits⟩, hQ⟩ :=
      (completes_exchange hb (.inl rfl) (hvalues amountOut price) positiveOut out_lt).mp hrest
    refine ⟨account, amountOut, ?_, hQ⟩
    exact
      { enabled, timely := ⟨now, time, timely⟩, caller, positiveIn, positiveOut, out_lt, product,
        covered, credit, fits, divisor, price, minOut_le }
  · rintro ⟨account, amountOut, h, hQ⟩
    obtain ⟨now, time, timely⟩ := h.timely
    obtain ⟨values, hvalues, hterms⟩ :=
      exists_saleTerms context hb amountIn minOut deadline now
    refine ⟨h.enabled, now, time, timely, ?_⟩
    rw [completes_append]
    refine (hterms _).mpr ⟨h.positiveIn, h.divisor, amountOut, h.price, h.minOut_le,
      h.positiveOut, h.out_lt, ?_⟩
    exact (completes_exchange hb (.inl rfl) (hvalues amountOut h.price) h.positiveOut
      h.out_lt).mpr ⟨h.product, account, h.caller, ⟨h.positiveIn, h.covered⟩, h.credit,
        ⟨h.positiveIn, h.fits⟩, hQ⟩

/-- The body of `swapExact` is not stopped at its last assertion if the product is kept whenever
the price is one that the pool can pay. -/
theorem not_stopped_swapExact (hb : b.Shows o.view) (amountIn minOut deadline : Int64)
    (h : ∀ amountOut : Int64, 0 < amountIn.toInt → amountOut.toInt =
      (amountIn.toInt * 997 * b.reserve .b).tdiv (b.reserve .a * 1000 + amountIn.toInt * 997) →
      0 < amountOut.toInt → amountOut.toInt < b.reserve .b →
      b.KeepsProduct amountIn.toInt amountOut.toInt) :
    ¬Completes ⟨contract, context⟩ (swapExact.code.take 41)
      ⟨.ofValues 64 [.amount amountIn, .amount minOut, .timestamp deadline], o⟩
      fun m => ¬Succeeds (m.registers.getBool 37 0) (· = true) := by
  have hcode : swapExact.code.take 41 =
      gate 3 2 ++ ((swapExact.code.drop 4).take 24 ++ TradeRegisters.sale.exchange.take 13) := by
    decide +kernel
  rw [hcode, completes_append, completes_gate hb rfl (by decide) rfl]
  rintro ⟨-, now, -, -, hrest⟩
  obtain ⟨values, hvalues, hterms⟩ :=
    exists_saleTerms context hb amountIn minOut deadline now
  rw [completes_append] at hrest
  obtain ⟨hin, -, amountOut, hprice, -, hout, hlt, hrest⟩ := (hterms _).mp hrest
  have hfalls := (completes_product hb (.inl rfl) (hvalues amountOut hprice)).mp hrest
  exact hfalls (h amountOut hin hprice hout hlt)

/-! ### Purchases -/

/-- The pool has what is asked for, and the caller agrees to the price. -/
theorem exists_purchaseTerms (context : Context) (hb : b.Shows o.view)
    (amountOut maxIn deadline now : Int64) :
    ∃ values : Int64 → List Value,
      (∀ amountIn : Int64, amountIn.toInt = (b.reserve .a * amountOut.toInt * 1000).tdiv
          ((b.reserve .b - amountOut.toInt) * 997) + 1 →
        TradeRegisters.purchase.Hold b amountIn amountOut (values amountIn)) ∧
      ∀ P, Completes ⟨contract, context⟩ ((swapForExact.code.drop 4).take 24)
          ⟨.ofValues 64 [.amount amountOut, .amount maxIn, .timestamp deadline,
            .boolean b.enabled, .timestamp now], o⟩ P ↔
        0 < amountOut.toInt ∧ amountOut.toInt < b.reserve .b ∧ b.reserve .b - amountOut.toInt ≠ 0 ∧
          ∃ amountIn : Int64, amountIn.toInt = (b.reserve .a * amountOut.toInt * 1000).tdiv
              ((b.reserve .b - amountOut.toInt) * 997) + 1 ∧
            amountIn.toInt ≤ maxIn.toInt ∧ P ⟨.ofValues 64 (values amountIn), o⟩ := by
  have hreserve := fun t => Book.bitBound_of_isAmount (hb.bounded.reserve t)
  refine ⟨?values, ?registers, ?terms⟩
  case terms =>
    intro P
    conv => lhs; arg 2; cbv
    conv => lhs; simp [hb.reads, hb.bounded.toInt_ofInt]
  case registers =>
    intro amountIn hprice
    exact ⟨rfl, rfl, by rw [hprice]; rfl, rfl, rfl, rfl, rfl⟩

theorem completes_swapForExact (hb : b.Shows o.view) (amountOut maxIn deadline : Int64) :
    Completes ⟨contract, context⟩ swapForExact.code
        ⟨.ofValues 64 [.amount amountOut, .amount maxIn, .timestamp deadline], o⟩
        (fun m => Q m.overlay) ↔
      ∃ account amountIn, b.Buys context amountOut maxIn deadline account amountIn ∧
        Q (o.record ((b.trading account amountIn.toInt amountOut.toInt).map Posting.update)) := by
  have hcode : swapForExact.code =
      gate 3 2 ++ ((swapForExact.code.drop 4).take 24 ++ TradeRegisters.purchase.exchange) := by
    decide +kernel
  rw [hcode, completes_append, completes_gate hb rfl (by decide) rfl]
  constructor
  · rintro ⟨enabled, now, time, timely, hrest⟩
    obtain ⟨values, hvalues, hterms⟩ :=
      exists_purchaseTerms context hb amountOut maxIn deadline now
    rw [completes_append] at hrest
    obtain ⟨positiveOut, out_lt, -, amountIn, price, le_maxIn, hrest⟩ := (hterms _).mp hrest
    obtain ⟨product, account, caller, ⟨positiveIn, covered⟩, credit, ⟨-, fits⟩, hQ⟩ :=
      (completes_exchange hb (.inr rfl) (hvalues amountIn price) positiveOut out_lt).mp hrest
    refine ⟨account, amountIn, ?_, hQ⟩
    exact
      { enabled, timely := ⟨now, time, timely⟩, caller, positiveIn, positiveOut, out_lt, product,
        covered, credit, fits, price, le_maxIn }
  · rintro ⟨account, amountIn, h, hQ⟩
    obtain ⟨now, time, timely⟩ := h.timely
    obtain ⟨values, hvalues, hterms⟩ :=
      exists_purchaseTerms context hb amountOut maxIn deadline now
    have hleft : b.reserve .b - amountOut.toInt ≠ 0 := by
      have := h.out_lt
      omega
    refine ⟨h.enabled, now, time, timely, ?_⟩
    rw [completes_append]
    refine (hterms _).mpr ⟨h.positiveOut, h.out_lt, hleft, amountIn, h.price, h.le_maxIn, ?_⟩
    exact (completes_exchange hb (.inr rfl) (hvalues amountIn h.price) h.positiveOut
      h.out_lt).mpr ⟨h.product, account, h.caller, ⟨h.positiveIn, h.covered⟩, h.credit,
        ⟨h.positiveIn, h.fits⟩, hQ⟩

/-- The body of `swapForExact` is not stopped at its last assertion if the product is kept at every
price. -/
theorem not_stopped_swapForExact (hb : b.Shows o.view) (amountOut maxIn deadline : Int64)
    (h : ∀ amountIn : Int64, 0 < amountOut.toInt → amountOut.toInt < b.reserve .b →
      amountIn.toInt = (b.reserve .a * amountOut.toInt * 1000).tdiv
        ((b.reserve .b - amountOut.toInt) * 997) + 1 →
      b.KeepsProduct amountIn.toInt amountOut.toInt) :
    ¬Completes ⟨contract, context⟩ (swapForExact.code.take 41)
      ⟨.ofValues 64 [.amount amountOut, .amount maxIn, .timestamp deadline], o⟩
      fun m => ¬Succeeds (m.registers.getBool 38 0) (· = true) := by
  have hcode : swapForExact.code.take 41 = gate 3 2 ++
      ((swapForExact.code.drop 4).take 24 ++ TradeRegisters.purchase.exchange.take 13) := by
    decide +kernel
  rw [hcode, completes_append, completes_gate hb rfl (by decide) rfl]
  rintro ⟨-, now, -, -, hrest⟩
  obtain ⟨values, hvalues, hterms⟩ :=
    exists_purchaseTerms context hb amountOut maxIn deadline now
  rw [completes_append] at hrest
  obtain ⟨hout, hlt, -, amountIn, hprice, -, hrest⟩ := (hterms _).mp hrest
  have hfalls := (completes_product hb (.inr rfl) (hvalues amountIn hprice)).mp hrest
  exact hfalls (h amountIn hout hlt hprice)

end ContractMachine.Pool
