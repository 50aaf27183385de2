import ContractMachine.Proofs.Pool.Bodies

/-! The bodies that open the pool, add liquidity and remove it follow its rules. Each is cut into
its checks, the amounts that it finds, and the settlement. Of what a phase leaves in the registers
its lemma names only what the later ones read. -/

namespace ContractMachine.Pool

open Machine Symbolic

set_option maxRecDepth 4000

variable {b : Book} {o : Overlay} {context : Context} {Q : Overlay → Prop}

/-! ### Opening the pool -/

/-- What `setSwap` has in its registers once it knows the number of shares. -/
structure OpeningRegisters (b : Book) (amountA amountB shares : Int64) (values : List Value) :
    Prop where
  amountA : values[0]? = some (.amount amountA)
  amountB : values[1]? = some (.amount amountB)
  maker : values[8]? = some (.address b.maker)
  shares : values[15]? = some (.amount shares)
  minimum : values[16]? = some (.amount (.ofInt b.minimum))
  next : values.length = 18

theorem exists_openingChecks (context : Context) (hb : b.Shows o.view) (amountA amountB : Int64) :
    ∃ results : List Value, results.length = 6 ∧
      ∀ P, Completes ⟨contract, context⟩ (setSwap.code.take 10)
          ⟨.ofValues 64 [.amount amountA, .amount amountB], o⟩ P ↔
        context.caller = some b.maker ∧ b.enabled = false ∧ 0 < amountA.toInt ∧
          0 < amountB.toInt ∧
          P ⟨.ofValues 64 (.amount amountA :: .amount amountB :: results), o⟩ := by
  -- what the registers hold is read off the run, so the run comes first
  refine ⟨?results, ?length, ?checks⟩
  case checks =>
    intro P
    conv => lhs; arg 2; cbv
    conv => lhs; simp [hb.reads]
  case length => rfl

/-- The escrows of the maker after the first deposit. -/
abbrev Book.deposited (b : Book) (amountA amountB : Int64) : List Update :=
  [.entry 0 (.address b.maker) (.amount (.ofInt (b.escrow .a b.maker) - amountA)),
    .entry 1 (.address b.maker) (.amount (.ofInt (b.escrow .b b.maker) - amountB))]

/-- The first deposit is covered, and the shares are the root of the product. -/
theorem exists_openingTerms (context : Context) (hb : b.Shows o.view) {amountA amountB : Int64}
    {results : List Value} (hresults : results.length = 6) (hcaller : context.caller = some b.maker)
    (hA : 0 < amountA.toInt) (hB : 0 < amountB.toInt) :
    ∃ values : Int64 → List Value,
      (∀ shares, OpeningRegisters b amountA amountB shares (values shares)) ∧
      ∀ P, Completes ⟨contract, context⟩ ((setSwap.code.drop 10).take 13)
          ⟨.ofValues 64 (.amount amountA :: .amount amountB :: results), o⟩ P ↔
        amountA.toInt ≤ b.escrow .a b.maker ∧ amountB.toInt ≤ b.escrow .b b.maker ∧
          ∃ shares : Int64, 0 ≤ shares.toInt ∧
            shares.toInt * shares.toInt ≤ amountA.toInt * amountB.toInt ∧
            amountA.toInt * amountB.toInt < (shares.toInt + 1) * (shares.toInt + 1) ∧
            b.minimum < shares.toInt ∧
            P ⟨.ofValues 64 (values shares), o.record (b.deposited amountA amountB)⟩ := by
  refine ⟨?values, ?registers, ?terms⟩
  case terms =>
    intro P
    conv => lhs; arg 2; cbv
    conv =>
      lhs
      simp [-getElem?_pos, hb.reads, hb.bounded.toInt_ofInt, hcaller, hA, hB, hresults]
  case registers =>
    intro shares
    constructor <;> simp [hresults]

/-- The shares come from the budget, and the maker gets those that are not locked. -/
theorem completes_openingIssue (hb : b.Shows o.view) {amountA amountB shares : Int64}
    {values : List Value} (hvalues : OpeningRegisters b amountA amountB shares values) :
    Completes ⟨contract, context⟩ (setSwap.code.drop 23)
        ⟨.ofValues 64 values, o.record (b.deposited amountA amountB)⟩ (fun m => Q m.overlay) ↔
      0 < shares.toInt ∧ shares.toInt ≤ b.reserve .liquidity ∧
        ∃ minted : Int64, minted.toInt = shares.toInt - b.minimum ∧ 0 < minted.toInt ∧
          b.escrow .liquidity b.maker + minted.toInt < 9223372036854775808 ∧
          Q (o.record (b.deposited amountA amountB ++
            [.var 9 (.amount (.ofInt (b.reserve .liquidity) - shares)),
              .entry 2 (.address b.maker) (.amount (.ofInt (b.escrow .liquidity b.maker) + minted)),
              .var 8 (.amount shares), .var 6 (.amount amountA), .var 7 (.amount amountB),
              .var 4 (.boolean true)])) := by
  obtain ⟨hamountA, hamountB, hmaker, hshares, hlocked, hnext⟩ := hvalues
  conv => lhs; arg 2; cbv
  simp [-getElem?_pos, hb.reads, hb.bounded.toInt_ofInt, hamountA, hamountB, hmaker, hshares,
    hlocked, hnext]

/-- An amount is the difference just in case this does not overflow. -/
theorem toInt_sub_eq_iff {shares minted : Int64} {minimum : Int}
    (hminimum : minimum < shares.toInt) :
    minted.toInt = shares.toInt - minimum ↔
      shares.toInt - minimum < 9223372036854775808 ∧ minted = shares - .ofInt minimum := by
  have hofInt : Int64.ofInt (shares.toInt - minimum) = shares - .ofInt minimum := by
    rw [Int64.ofInt_sub, Int64.ofInt_toInt]
  constructor
  · intro h
    refine ⟨h ▸ minted.toInt_lt, ?_⟩
    rw [← hofInt, ← h, Int64.ofInt_toInt]
  · rintro ⟨hfits, rfl⟩
    rw [← hofInt]
    exact Int64.toInt_ofInt_of_le (by omega) (by omega)

theorem completes_setSwap (hb : b.Shows o.view) (amountA amountB : Int64) :
    Completes ⟨contract, context⟩ setSwap.code ⟨.ofValues 64 [.amount amountA, .amount amountB], o⟩
        (fun m => Q m.overlay) ↔
      ∃ shares, b.Opens context amountA amountB shares ∧
        Q (o.record
          ((b.opening amountA.toInt amountB.toInt shares.toInt).map Posting.update)) := by
  have hcode : setSwap.code =
      setSwap.code.take 10 ++ ((setSwap.code.drop 10).take 13 ++ setSwap.code.drop 23) := by
    decide +kernel
  obtain ⟨results, hresults, hchecks⟩ :=
    exists_openingChecks context hb amountA amountB
  rw [hcode, completes_append, hchecks]
  constructor
  · rintro ⟨caller, closed, positiveA, positiveB, hrest⟩
    obtain ⟨values, hvalues, hterms⟩ :=
      exists_openingTerms context hb hresults caller positiveA positiveB
    rw [completes_append] at hrest
    obtain ⟨coveredA, coveredB, shares, -, root_le, lt_root, minimum_lt, hrest⟩ :=
      (hterms _).mp hrest
    obtain ⟨positive, budget, minted, hminted, -, credit, hQ⟩ :=
      (completes_openingIssue hb (hvalues shares)).mp hrest
    rw [hminted] at credit
    obtain ⟨hfits, rfl⟩ := (toInt_sub_eq_iff minimum_lt).mp hminted
    refine ⟨shares, ?_, by simpa [Book.opening] using hQ⟩
    exact
      { caller, closed, positiveA, positiveB, coveredA, coveredB, positive, root_le, lt_root,
        minimum_lt, budget, minted := hfits, credit }
  · rintro ⟨shares, h, hQ⟩
    obtain ⟨values, hvalues, hterms⟩ :=
      exists_openingTerms context hb hresults h.caller h.positiveA h.positiveB
    have hminimum := h.minimum_lt
    have hminted := (toInt_sub_eq_iff hminimum).mpr ⟨h.minted, rfl⟩
    refine ⟨h.caller, h.closed, h.positiveA, h.positiveB, ?_⟩
    rw [completes_append]
    refine (hterms _).mpr ⟨h.coveredA, h.coveredB, shares, h.positive.le, h.root_le, h.lt_root,
      hminimum, ?_⟩
    refine (completes_openingIssue hb (hvalues shares)).mpr ⟨h.positive, h.budget, _, hminted,
      by omega, ?_, by simpa [Book.opening] using hQ⟩
    rw [hminted]
    exact h.credit

/-! ### Adding liquidity -/

/-- What is taken of A where both amounts are offered. -/
def Book.takenA (b : Book) (offeredA offeredB : Int) : Int :=
  if b.matchingB offeredA ≤ offeredB then offeredA else b.matchingA offeredB

def Book.takenB (b : Book) (offeredA offeredB : Int) : Int :=
  if b.matchingB offeredA ≤ offeredB then b.matchingB offeredA else offeredB

/-- The body has no branches: it chooses by a factor of one or zero. -/
theorem Book.exists_pick (b : Book) (offeredA offeredB : Int) :
    ∃ pick, BitBound pick 1 ∧
      BinaryOp.min.exact (BinaryOp.max.exact (offeredB - b.matchingB offeredA + 1) 0) 1 = pick ∧
      b.matchingA offeredB + pick * (offeredA - b.matchingA offeredB) = b.takenA offeredA offeredB ∧
      offeredB + pick * (b.matchingB offeredA - offeredB) = b.takenB offeredA offeredB := by
  refine ⟨if b.matchingB offeredA ≤ offeredB then 1 else 0, ?_, ?_, ?_, ?_⟩
  · split <;> constructor <;> decide
  · simp only [BinaryOp.exact]
    grind
  · rw [takenA]
    split <;> omega
  · rw [takenB]
    split <;> omega

/-- What `addLiquidity` has in its registers once it knows how much of each token it takes. -/
structure AdditionRegisters (b : Book) (minA minB amountA amountB : Int64) (values : List Value) :
    Prop where
  minA : values[2]? = some (.amount minA)
  minB : values[3]? = some (.amount minB)
  zero : values[10]? = some (.amount 0)
  reserveA : values[16]? = some (.bigInteger (b.reserve .a))
  reserveB : values[17]? = some (.bigInteger (b.reserve .b))
  supply : values[18]? = some (.bigInteger b.supply)
  bigA : values[31]? = some (.bigInteger amountA.toInt)
  bigB : values[34]? = some (.bigInteger amountB.toInt)
  amountType : values[35]? = some (.dataType .amount)
  amountA : values[36]? = some (.amount amountA)
  amountB : values[37]? = some (.amount amountB)
  next : values.length = 38

/-- There are reserves, and from them it follows how much of each token is taken. That they are not
zero is asked again by the divisions. -/
theorem exists_additionTerms (context : Context) (hb : b.Shows o.view)
    (offeredA offeredB minA minB deadline now : Int64) :
    ∃ values : Int64 → Int64 → List Value,
      (∀ amountA amountB : Int64, amountA.toInt = b.takenA offeredA.toInt offeredB.toInt →
        amountB.toInt = b.takenB offeredA.toInt offeredB.toInt →
        AdditionRegisters b minA minB amountA amountB (values amountA amountB)) ∧
      ∀ P, Completes ⟨contract, context⟩ ((addLiquidity.code.drop 4).take 33)
          ⟨.ofValues 64 [.amount offeredA, .amount offeredB, .amount minA, .amount minB,
            .timestamp deadline, .boolean b.enabled, .timestamp now], o⟩ P ↔
        0 < b.reserve .a ∧ 0 < b.reserve .b ∧ b.reserve .a ≠ 0 ∧ b.reserve .b ≠ 0 ∧
          ∃ amountA : Int64, amountA.toInt = b.takenA offeredA.toInt offeredB.toInt ∧
          ∃ amountB : Int64, amountB.toInt = b.takenB offeredA.toInt offeredB.toInt ∧
            P ⟨.ofValues 64 (values amountA amountB), o⟩ := by
  have hreserve := fun t => Book.bitBound_of_isAmount (hb.bounded.reserve t)
  have hsupply := Book.bitBound_of_isAmount hb.bounded.supply
  obtain ⟨pick, hbit, hpick, htakenA, htakenB⟩ := b.exists_pick offeredA.toInt offeredB.toInt
  rw [← htakenA, ← htakenB]
  simp only [Book.matchingA, Book.matchingB] at hpick ⊢
  refine ⟨?values, ?registers, ?terms⟩
  case terms =>
    intro P
    conv => lhs; arg 2; cbv
    conv => lhs; simp [hb.reads, hb.bounded.toInt_ofInt, hpick]
  case registers =>
    intro amountA amountB hA hB
    exact ⟨rfl, rfl, rfl, rfl, rfl, rfl, by rw [hA]; rfl, by rw [hB]; rfl, rfl, rfl, rfl, rfl⟩

/-- What `addLiquidity` hands to its settlement. -/
structure AdditionSettled (amountA amountB shares : Int64) (values : List Value) : Prop where
  amountA : values[36]? = some (.amount amountA)
  amountB : values[37]? = some (.amount amountB)
  shares : values[45]? = some (.amount shares)
  next : values.length = 47

/-- Both amounts reach their minima, and there are shares to be had for them. -/
theorem exists_additionShares (context : Context) (hb : b.Shows o.view)
    {minA minB amountA amountB : Int64} {values : List Value}
    (hvalues : AdditionRegisters b minA minB amountA amountB values)
    (hA : 0 < b.reserve .a) (hB : 0 < b.reserve .b) :
    ∃ results : Int64 → List Value,
      (∀ shares, AdditionSettled amountA amountB shares (values ++ results shares)) ∧
      ∀ P, Completes ⟨contract, context⟩ ((addLiquidity.code.drop 37).take 12)
          ⟨.ofValues 64 values, o⟩ P ↔
        minA.toInt ≤ amountA.toInt ∧ minB.toInt ≤ amountB.toInt ∧
          ∃ shares : Int64, shares.toInt =
              BinaryOp.min.exact ((amountA.toInt * b.supply).tdiv (b.reserve .a))
                ((amountB.toInt * b.supply).tdiv (b.reserve .b)) ∧
            0 < shares.toInt ∧ P ⟨.ofValues 64 (values ++ results shares), o⟩ := by
  have hreserve := fun t => Book.bitBound_of_isAmount (hb.bounded.reserve t)
  have hsupply := Book.bitBound_of_isAmount hb.bounded.supply
  obtain ⟨hminA, hminB, hzero, hreserveA, hreserveB, htotal, hbigA, hbigB, htype, hamountA,
    hamountB, hnext⟩ := hvalues
  refine ⟨?results, ?registers, ?terms⟩
  case terms =>
    intro P
    conv => lhs; arg 2; cbv
    conv =>
      lhs
      simp [-getElem?_pos, hminA, hminB, hzero, hreserveA, hreserveB, htotal, hbigA, hbigB, htype,
        hamountA, hamountB, hnext, hA.ne', hB.ne']
  case registers =>
    intro shares
    constructor <;> simp [-getElem?_pos, hamountA, hamountB, hnext]

theorem completes_additionSettlement (hb : b.Shows o.view) {amountA amountB shares : Int64}
    {values : List Value} (hvalues : AdditionSettled amountA amountB shares values)
    (hshares : 0 < shares.toInt) :
    Completes ⟨contract, context⟩ (addLiquidity.code.drop 49) ⟨.ofValues 64 values, o⟩
        (fun m => Q m.overlay) ↔
      ∃ account, context.caller = some account ∧
        (0 < amountA.toInt ∧ amountA.toInt ≤ b.escrow .a account) ∧
        (0 < amountB.toInt ∧ amountB.toInt ≤ b.escrow .b account) ∧
        shares.toInt ≤ b.reserve .liquidity ∧
        (0 < amountA.toInt ∧ b.reserve .a + amountA.toInt < 9223372036854775808) ∧
        (0 < amountB.toInt ∧ b.reserve .b + amountB.toInt < 9223372036854775808) ∧
        b.supply + shares.toInt < 9223372036854775808 ∧
        b.escrow .liquidity account + shares.toInt < 9223372036854775808 ∧
        Q (o.record
          ((b.adding account amountA.toInt amountB.toInt shares.toInt).map Posting.update)) := by
  obtain ⟨hamountA, hamountB, hregister, hnext⟩ := hvalues
  conv => lhs; arg 2; cbv
  simp [-getElem?_pos, hb.reads, hb.bounded.toInt_ofInt, hamountA, hamountB, hregister, hnext,
    hshares, Book.adding, and_assoc]

theorem completes_addLiquidity (hb : b.Shows o.view)
    (offeredA offeredB minA minB deadline : Int64) :
    Completes ⟨contract, context⟩ addLiquidity.code
        ⟨.ofValues 64 [.amount offeredA, .amount offeredB, .amount minA, .amount minB,
          .timestamp deadline], o⟩ (fun m => Q m.overlay) ↔
      ∃ account amountA amountB shares,
        b.Adds context offeredA offeredB minA minB deadline account amountA amountB shares ∧
        Q (o.record
          ((b.adding account amountA.toInt amountB.toInt shares.toInt).map Posting.update)) := by
  have hcode : addLiquidity.code = gate 5 4 ++ ((addLiquidity.code.drop 4).take 33 ++
      ((addLiquidity.code.drop 37).take 12 ++ addLiquidity.code.drop 49)) := by decide +kernel
  rw [hcode, completes_append, completes_gate hb rfl (by decide) rfl]
  constructor
  · rintro ⟨enabled, now, time, timely, hrest⟩
    obtain ⟨values, hvalues, hterms⟩ :=
      exists_additionTerms context hb offeredA offeredB minA minB deadline now
    rw [completes_append] at hrest
    obtain ⟨reserveA, reserveB, -, -, amountA, amountA_eq, amountB, amountB_eq, hrest⟩ :=
      (hterms _).mp hrest
    obtain ⟨results, hresults, hshares⟩ := exists_additionShares context hb
      (hvalues amountA amountB amountA_eq amountB_eq) reserveA reserveB
    rw [completes_append] at hrest
    obtain ⟨minA_le, minB_le, shares, shares_eq, positive, hrest⟩ := (hshares _).mp hrest
    obtain ⟨account, caller, ⟨positiveA, coveredA⟩, ⟨positiveB, coveredB⟩, budget, ⟨-, fitsA⟩,
      ⟨-, fitsB⟩, supply, credit, hQ⟩ :=
      (completes_additionSettlement hb (hresults shares) positive).mp hrest
    refine ⟨account, amountA, amountB, shares, ?_, hQ⟩
    exact
      { enabled, timely := ⟨now, time, timely⟩, caller, reserveA, reserveB, amountA_eq, amountB_eq,
        minA_le, minB_le, shares_eq, positive, positiveA, coveredA, positiveB, coveredB, budget,
        fitsA, fitsB, supply, credit }
  · rintro ⟨account, amountA, amountB, shares, h, hQ⟩
    obtain ⟨now, time, timely⟩ := h.timely
    obtain ⟨values, hvalues, hterms⟩ :=
      exists_additionTerms context hb offeredA offeredB minA minB deadline now
    obtain ⟨results, hresults, hshares⟩ := exists_additionShares context hb
      (hvalues amountA amountB h.amountA_eq h.amountB_eq) h.reserveA h.reserveB
    refine ⟨h.enabled, now, time, timely, ?_⟩
    rw [completes_append]
    refine (hterms _).mpr ⟨h.reserveA, h.reserveB, h.reserveA.ne', h.reserveB.ne', amountA,
      h.amountA_eq, amountB, h.amountB_eq, ?_⟩
    rw [completes_append]
    refine (hshares _).mpr ⟨h.minA_le, h.minB_le, shares, h.shares_eq, h.positive, ?_⟩
    exact (completes_additionSettlement hb (hresults shares) h.positive).mpr
      ⟨account, h.caller, ⟨h.positiveA, h.coveredA⟩, ⟨h.positiveB, h.coveredB⟩, h.budget,
        ⟨h.positiveA, h.fitsA⟩, ⟨h.positiveB, h.fitsB⟩, h.supply, h.credit, hQ⟩

/-! ### Removing liquidity -/

/-- What `removeLiquidity` hands to its settlement. -/
structure RemovalSettled (shares amountA amountB : Int64) (account : Address)
    (values : List Value) : Prop where
  shares : values[0]? = some (.amount shares)
  account : values[6]? = some (.address account)
  amountA : values[20]? = some (.amount amountA)
  amountB : values[21]? = some (.amount amountB)

/-- The escrow of an account that has given back shares. -/
abbrev Book.returned (b : Book) (account : Address) (shares : Int64) : Update :=
  .entry 2 (.address account) (.amount (.ofInt (b.escrow .liquidity account) - shares))

/-- The shares are given back before it is known what they are worth. -/
theorem exists_removalTerms (context : Context) (hb : b.Shows o.view)
    (shares minA minB deadline now : Int64) :
    ∃ values : Address → Int64 → Int64 → List Value,
      (∀ account amountA amountB,
        RemovalSettled shares amountA amountB account (values account amountA amountB)) ∧
      ∀ P, Completes ⟨contract, context⟩ ((removeLiquidity.code.drop 4).take 21)
          ⟨.ofValues 64 [.amount shares, .amount minA, .amount minB, .timestamp deadline,
            .boolean b.enabled, .timestamp now], o⟩ P ↔
        ∃ account, context.caller = some account ∧ 0 < shares.toInt ∧
          shares.toInt ≤ b.escrow .liquidity account ∧ b.supply ≠ 0 ∧
          ∃ amountA : Int64, amountA.toInt = (shares.toInt * b.reserve .a).tdiv b.supply ∧
          ∃ amountB : Int64, amountB.toInt = (shares.toInt * b.reserve .b).tdiv b.supply ∧
            minA.toInt ≤ amountA.toInt ∧ minB.toInt ≤ amountB.toInt ∧
            P ⟨.ofValues 64 (values account amountA amountB),
              o.record [b.returned account shares]⟩ := by
  have hreserve := fun t => Book.bitBound_of_isAmount (hb.bounded.reserve t)
  refine ⟨?values, ?registers, ?terms⟩
  case terms =>
    intro P
    conv => lhs; arg 2; cbv
    conv => lhs; simp [hb.reads, hb.bounded.toInt_ofInt]
  case registers =>
    intro account amountA amountB
    exact ⟨rfl, rfl, rfl, rfl⟩

theorem completes_removalSettlement (hb : b.Shows o.view) {shares amountA amountB : Int64}
    {account : Address} {values : List Value}
    (hvalues : RemovalSettled shares amountA amountB account values) (hshares : 0 < shares.toInt) :
    Completes ⟨contract, context⟩ (removeLiquidity.code.drop 25)
        ⟨.ofValues 64 values, o.record [b.returned account shares]⟩ (fun m => Q m.overlay) ↔
      (0 < amountA.toInt ∧ b.escrow .a account + amountA.toInt < 9223372036854775808) ∧
        (0 < amountB.toInt ∧ b.escrow .b account + amountB.toInt < 9223372036854775808) ∧
        (0 < amountA.toInt ∧ amountA.toInt ≤ b.reserve .a) ∧
        (0 < amountB.toInt ∧ amountB.toInt ≤ b.reserve .b) ∧
        shares.toInt ≤ b.supply ∧ b.reserve .liquidity + shares.toInt < 9223372036854775808 ∧
        Q (o.record
          ((b.removing account amountA.toInt amountB.toInt shares.toInt).map Posting.update)) := by
  obtain ⟨hregister, haccount, hamountA, hamountB⟩ := hvalues
  conv => lhs; arg 2; cbv
  simp [-getElem?_pos, hb.reads, hb.bounded.toInt_ofInt, hregister, haccount, hamountA, hamountB,
    hshares, Book.removing, and_assoc]

theorem completes_removeLiquidity (hb : b.Shows o.view) (shares minA minB deadline : Int64) :
    Completes ⟨contract, context⟩ removeLiquidity.code
        ⟨.ofValues 64 [.amount shares, .amount minA, .amount minB, .timestamp deadline], o⟩
        (fun m => Q m.overlay) ↔
      ∃ account amountA amountB,
        b.Removes context shares minA minB deadline account amountA amountB ∧
        Q (o.record
          ((b.removing account amountA.toInt amountB.toInt shares.toInt).map Posting.update)) := by
  have hcode : removeLiquidity.code = gate 4 3 ++
      ((removeLiquidity.code.drop 4).take 21 ++ removeLiquidity.code.drop 25) := by decide +kernel
  rw [hcode, completes_append, completes_gate hb rfl (by decide) rfl]
  constructor
  · rintro ⟨enabled, now, time, timely, hrest⟩
    obtain ⟨values, hvalues, hterms⟩ :=
      exists_removalTerms context hb shares minA minB deadline now
    rw [completes_append] at hrest
    obtain ⟨account, caller, positive, covered, supply_ne, amountA, amountA_eq, amountB, amountB_eq,
      minA_le, minB_le, hrest⟩ := (hterms _).mp hrest
    obtain ⟨⟨positiveA, creditA⟩, ⟨positiveB, creditB⟩, ⟨-, reserveA⟩, ⟨-, reserveB⟩, supply,
      budget, hQ⟩ := (completes_removalSettlement hb (hvalues _ _ _) positive).mp hrest
    refine ⟨account, amountA, amountB, ?_, hQ⟩
    exact
      { enabled, timely := ⟨now, time, timely⟩, caller, positive, covered, supply_ne, amountA_eq,
        amountB_eq, minA_le, minB_le, positiveA, creditA, positiveB, creditB, reserveA, reserveB,
        supply, budget }
  · rintro ⟨account, amountA, amountB, h, hQ⟩
    obtain ⟨now, time, timely⟩ := h.timely
    obtain ⟨values, hvalues, hterms⟩ :=
      exists_removalTerms context hb shares minA minB deadline now
    refine ⟨h.enabled, now, time, timely, ?_⟩
    rw [completes_append]
    refine (hterms _).mpr ⟨account, h.caller, h.positive, h.covered, h.supply_ne, amountA,
      h.amountA_eq, amountB, h.amountB_eq, h.minA_le, h.minB_le, ?_⟩
    exact (completes_removalSettlement hb (hvalues _ _ _) h.positive).mpr
      ⟨⟨h.positiveA, h.creditA⟩, ⟨h.positiveB, h.creditB⟩, ⟨h.positiveA, h.reserveA⟩,
        ⟨h.positiveB, h.reserveB⟩, h.supply, h.budget, hQ⟩

end ContractMachine.Pool
