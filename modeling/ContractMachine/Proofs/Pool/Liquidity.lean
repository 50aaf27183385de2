import ContractMachine.Proofs.Pool.Settlement

/-! The terms on which liquidity is added to a pool and removed from it. -/

namespace ContractMachine.Pool

/-- Amounts of both tokens, and the shares that stand for them. -/
@[ext] structure Stake where
  amountA : Int
  amountB : Int
  shares : Int
  deriving DecidableEq

namespace Book

/-! ### Adding -/

/-- Amounts of both tokens with their shares, which are in proportion to the reserve of the token
that gives fewer, rounded. -/
def stake (b : Book) (amountA amountB : Int) : Stake where
  amountA
  amountB
  shares :=
    min ((amountA * b.supply).tdiv (b.reserve .a)) ((amountB * b.supply).tdiv (b.reserve .b))

/-- What comes in of an offer: all of the offered A if the matching B is within what is offered,
otherwise all of the offered B. -/
def addition (b : Book) (offeredA offeredB : Int) : Stake :=
  if b.matchingB offeredA ≤ offeredB then b.stake offeredA (b.matchingB offeredA)
  else b.stake (b.matchingA offeredB) offeredB

/-- The terms on which a stake is added. -/
structure AddTerms (b : Book) (context : Context) (minA minB deadline : Int64) (x : Stake)
    (account : Address) : Prop where
  enabled : b.enabled = true
  timely : context.Timely deadline
  caller : context.caller = some account
  reserveA : 0 < b.reserve .a
  reserveB : 0 < b.reserve .b
  minA_le : minA.toInt ≤ x.amountA
  minB_le : minB.toInt ≤ x.amountB
  positive : 0 < x.shares
  coveredA : x.amountA ≤ b.escrow .a account
  coveredB : x.amountB ≤ b.escrow .b account
  budget : x.shares ≤ b.reserve .liquidity
  fitsA : IsAmount (b.reserve .a + x.amountA)
  fitsB : IsAmount (b.reserve .b + x.amountB)
  supply : IsAmount (b.supply + x.shares)
  credit : IsAmount (b.escrow .liquidity account + x.shares)

variable {b : Book} {context : Context} {account : Address}

theorem pos_of_tdiv_pos {n d : Int} (hd : 0 < d) (h : 0 < n.tdiv d) : 0 < n := by
  by_contra hn
  have hneg : (-n).tdiv d = -n.tdiv d := Int.neg_tdiv n d
  have hnonneg := Int.tdiv_nonneg (show 0 ≤ -n by omega) hd.le
  omega

theorem stake_pos (hlive : b.Live) {amountA amountB : Int}
    (h : 0 < (b.stake amountA amountB).shares) : 0 < amountA ∧ 0 < amountB := by
  obtain ⟨hA, hB, hsupply⟩ := hlive
  obtain ⟨hsharesA, hsharesB⟩ := lt_min_iff.mp h
  exact ⟨pos_of_mul_pos_left (pos_of_tdiv_pos hA hsharesA) hsupply.le,
    pos_of_mul_pos_left (pos_of_tdiv_pos hB hsharesB) hsupply.le⟩

/-- No more than what is offered comes in. -/
theorem addition_le (hlive : b.Live) {offeredA offeredB : Int}
    (h : 0 < (b.addition offeredA offeredB).shares) :
    (0 < (b.addition offeredA offeredB).amountA ∧
      (b.addition offeredA offeredB).amountA ≤ offeredA) ∧
    0 < (b.addition offeredA offeredB).amountB ∧
      (b.addition offeredA offeredB).amountB ≤ offeredB := by
  have hA := hlive.1
  have hB := hlive.2.1
  rw [addition] at h ⊢
  split at h
  · rename_i hmatching
    rw [if_pos hmatching]
    obtain ⟨hpaidA, hpaidB⟩ := stake_pos hlive h
    exact ⟨⟨hpaidA, le_rfl⟩, hpaidB, hmatching⟩
  · rename_i hmatching
    rw [if_neg hmatching]
    obtain ⟨hpaidA, hpaidB⟩ := stake_pos hlive h
    refine ⟨⟨hpaidA, ?_⟩, hpaidB, le_rfl⟩
    -- more than all of the offered B would match the offered A
    have hmore : offeredB < b.matchingB offeredA := not_le.mp hmatching
    have hnumerator : 0 < offeredA * b.reserve .b := pos_of_tdiv_pos hA (hpaidB.trans hmore)
    have hratio : offeredB * b.reserve .a ≤ offeredA * b.reserve .b :=
      calc offeredB * b.reserve .a ≤ b.matchingB offeredA * b.reserve .a :=
            Int.mul_le_mul_of_nonneg_right hmore.le hA.le
        _ ≤ offeredA * b.reserve .b := tdiv_mul_le hnumerator.le hA
    have hrounded : b.matchingA offeredB * b.reserve .b ≤ offeredB * b.reserve .a :=
      tdiv_mul_le (Int.mul_pos hpaidB hA).le hB
    exact le_of_mul_le_mul_right (hrounded.trans hratio) hB

theorem amountA_addition (b : Book) (offeredA offeredB : Int) :
    (b.addition offeredA offeredB).amountA =
      if b.matchingB offeredA ≤ offeredB then offeredA else b.matchingA offeredB :=
  apply_ite Stake.amountA _ _ _

theorem amountB_addition (b : Book) (offeredA offeredB : Int) :
    (b.addition offeredA offeredB).amountB =
      if b.matchingB offeredA ≤ offeredB then b.matchingB offeredA else offeredB :=
  apply_ite Stake.amountB _ _ _

theorem shares_addition (b : Book) (offeredA offeredB : Int) :
    (b.addition offeredA offeredB).shares =
      BinaryOp.min.exact
        (((b.addition offeredA offeredB).amountA * b.supply).tdiv (b.reserve .a))
        (((b.addition offeredA offeredB).amountB * b.supply).tdiv (b.reserve .b)) := by
  rw [addition]
  split <;> exact min_def _ _

variable {offeredA offeredB minA minB deadline amountA amountB shares : Int64}

theorem Adds.addition_eq
    (h : b.Adds context offeredA offeredB minA minB deadline account amountA amountB shares) :
    b.addition offeredA.toInt offeredB.toInt = ⟨amountA.toInt, amountB.toInt, shares.toInt⟩ := by
  have hA := (b.amountA_addition _ _).trans h.amountA_eq.symm
  have hB := (b.amountB_addition _ _).trans h.amountB_eq.symm
  refine Stake.ext hA hB ?_
  rw [shares_addition, hA, hB, ← h.shares_eq]

theorem Adds.addTerms (hbounded : b.Bounded)
    (h : b.Adds context offeredA offeredB minA minB deadline account amountA amountB shares) :
    b.AddTerms context minA minB deadline ⟨amountA.toInt, amountB.toInt, shares.toInt⟩ account :=
  { h with
    fitsA := (hbounded.reserve _).add h.positiveA h.fitsA
    fitsB := (hbounded.reserve _).add h.positiveB h.fitsB
    supply := hbounded.supply.add h.positive h.supply
    credit := (hbounded.escrow _ _).add h.positive h.credit }

/-- What is not among the terms, that amounts and shares fit and that something comes in, follows
from them where shares are backed. -/
theorem AddTerms.exists_adds (hb : b.Backed)
    (h : b.AddTerms context minA minB deadline (b.addition offeredA.toInt offeredB.toInt)
      account) :
    ∃ amountA amountB shares,
      b.Adds context offeredA offeredB minA minB deadline account amountA amountB shares := by
  have hlive := hb.live (.inr h.reserveB.ne')
  obtain ⟨⟨hposA, hleA⟩, hposB, hleB⟩ := addition_le hlive h.positive
  have hltA := offeredA.toInt_lt
  have hltB := offeredB.toInt_lt
  have hshares := h.positive
  have hsupply := h.supply.2
  have hsupplied := hlive.2.2
  obtain ⟨amountA, hA⟩ :
      ∃ n : Int64, n.toInt = (b.addition offeredA.toInt offeredB.toInt).amountA :=
    IsAmount.exists_toInt ⟨by omega, by omega⟩
  obtain ⟨amountB, hB⟩ :
      ∃ n : Int64, n.toInt = (b.addition offeredA.toInt offeredB.toInt).amountB :=
    IsAmount.exists_toInt ⟨by omega, by omega⟩
  obtain ⟨shares, hS⟩ :
      ∃ n : Int64, n.toInt = (b.addition offeredA.toInt offeredB.toInt).shares :=
    IsAmount.exists_toInt ⟨by omega, by omega⟩
  refine ⟨amountA, amountB, shares, ?_⟩
  exact
    { enabled := h.enabled, timely := h.timely, caller := h.caller, reserveA := h.reserveA,
      reserveB := h.reserveB, amountA_eq := hA.trans (b.amountA_addition _ _),
      amountB_eq := hB.trans (b.amountB_addition _ _), minA_le := hA ▸ h.minA_le,
      minB_le := hB ▸ h.minB_le, shares_eq := by rw [hS, hA, hB, shares_addition],
      positive := hS ▸ h.positive, positiveA := hA ▸ hposA, coveredA := hA ▸ h.coveredA,
      positiveB := hB ▸ hposB, coveredB := hB ▸ h.coveredB, budget := hS ▸ h.budget,
      fitsA := hA ▸ h.fitsA.2, fitsB := hB ▸ h.fitsB.2, supply := hS ▸ h.supply.2,
      credit := hS ▸ h.credit.2 }

theorem follows_addLiquidity {s : Store} (hrecords : b.Records s) (hb : b.Backed)
    (context : Context) (offeredA offeredB minA minB deadline : Int64) {x : Stake}
    (hx : b.addition offeredA.toInt offeredB.toInt = x) :
    b.Follows ⟨valid, s⟩
      (.invoke addLiquidityId context
        [.amount offeredA, .amount offeredB, .amount minA, .amount minB, .timestamp deadline])
      (b.AddTerms context minA minB deadline x)
      fun account => b.adding account x.amountA x.amountB x.shares := by
  subst hx
  refine hrecords.follows fun ps => permits_addLiquidity_iff.trans ?_
  constructor
  · rintro ⟨account, amountA, amountB, shares, h, rfl⟩
    rw [h.addition_eq]
    exact ⟨account, h.addTerms hrecords.bounded, rfl⟩
  · rintro ⟨account, h, rfl⟩
    obtain ⟨amountA, amountB, shares, hadds⟩ := h.exists_adds hb
    rw [hadds.addition_eq]
    exact ⟨account, amountA, amountB, shares, hadds, rfl⟩

/-! ### Removing -/

/-- What shares stand for: their part of both reserves, rounded down. -/
def redemption (b : Book) (shares : Int) : Stake where
  amountA := shares * b.reserve .a / b.supply
  amountB := shares * b.reserve .b / b.supply
  shares

/-- The terms on which a stake is removed. -/
structure RemoveTerms (b : Book) (context : Context) (minA minB deadline : Int64) (x : Stake)
    (account : Address) : Prop where
  enabled : b.enabled = true
  timely : context.Timely deadline
  caller : context.caller = some account
  positive : 0 < x.shares
  covered : x.shares ≤ b.escrow .liquidity account
  supply : x.shares ≤ b.supply
  minA_le : max 1 minA.toInt ≤ x.amountA
  minB_le : max 1 minB.toInt ≤ x.amountB
  creditA : IsAmount (b.escrow .a account + x.amountA)
  creditB : IsAmount (b.escrow .b account + x.amountB)
  budget : IsAmount (b.reserve .liquidity + x.shares)

/-- Some of the shares stand for no more than there is. -/
theorem part_le {shares supply reserve : Int} (hreserve : 0 ≤ reserve) (hpositive : 0 < shares)
    (hle : shares ≤ supply) : shares * reserve / supply ≤ reserve := by
  refine Int.ediv_le_of_le_mul (by omega) ?_
  rw [Int.mul_comm reserve]
  exact Int.mul_le_mul_of_nonneg_right hle hreserve

theorem RemoveTerms.redemption_le (hb : b.Backed)
    (h : b.RemoveTerms context minA minB deadline (b.redemption shares.toInt) account) :
    (b.redemption shares.toInt).amountA ≤ b.reserve .a ∧
      (b.redemption shares.toInt).amountB ≤ b.reserve .b := by
  have hsupply : 0 < b.supply := h.positive.trans_le h.supply
  obtain ⟨hA, hB, -⟩ := hb.live (.inl hsupply.ne')
  exact ⟨part_le hA.le h.positive h.supply, part_le hB.le h.positive h.supply⟩

theorem Removes.redemption_eq (hb : b.Backed)
    (h : b.Removes context shares minA minB deadline account amountA amountB) :
    b.redemption shares.toInt = ⟨amountA.toInt, amountB.toInt, shares.toInt⟩ := by
  obtain ⟨hA, hB, -⟩ := hb.live (.inl h.supply_ne)
  rw [redemption, h.amountA_eq, h.amountB_eq,
    Int.tdiv_eq_ediv_of_nonneg (Int.mul_pos h.positive hA).le,
    Int.tdiv_eq_ediv_of_nonneg (Int.mul_pos h.positive hB).le]

theorem Removes.removeTerms (hbounded : b.Bounded)
    (h : b.Removes context shares minA minB deadline account amountA amountB) :
    b.RemoveTerms context minA minB deadline ⟨amountA.toInt, amountB.toInt, shares.toInt⟩
      account :=
  { h with
    minA_le := max_le h.positiveA h.minA_le
    minB_le := max_le h.positiveB h.minB_le
    creditA := (hbounded.escrow _ _).add h.positiveA h.creditA
    creditB := (hbounded.escrow _ _).add h.positiveB h.creditB
    budget := (hbounded.reserve _).add h.positive h.budget }

/-- The reserves cover what goes out, since the shares that are given back are among those that
the reserves stand behind. -/
theorem RemoveTerms.exists_removes (hb : b.Backed) (hbounded : b.Bounded)
    (h : b.RemoveTerms context minA minB deadline (b.redemption shares.toInt) account) :
    ∃ amountA amountB,
      b.Removes context shares minA minB deadline account amountA amountB := by
  have hsupply : 0 < b.supply := h.positive.trans_le h.supply
  obtain ⟨hreserveA, hreserveB, -⟩ := hb.live (.inl hsupply.ne')
  obtain ⟨hleA, hleB⟩ := h.redemption_le hb
  obtain ⟨hposA, hminA⟩ := max_le_iff.mp h.minA_le
  obtain ⟨hposB, hminB⟩ := max_le_iff.mp h.minB_le
  have hltA := (hbounded.reserve .a).2
  have hltB := (hbounded.reserve .b).2
  obtain ⟨amountA, hA⟩ : ∃ n : Int64, n.toInt = (b.redemption shares.toInt).amountA :=
    IsAmount.exists_toInt ⟨by omega, by omega⟩
  obtain ⟨amountB, hB⟩ : ∃ n : Int64, n.toInt = (b.redemption shares.toInt).amountB :=
    IsAmount.exists_toInt ⟨by omega, by omega⟩
  refine ⟨amountA, amountB, ?_⟩
  exact
    { enabled := h.enabled, timely := h.timely, caller := h.caller, positive := h.positive,
      covered := h.covered, supply_ne := hsupply.ne',
      amountA_eq := hA.trans
        (Int.tdiv_eq_ediv_of_nonneg (Int.mul_pos h.positive hreserveA).le).symm,
      amountB_eq := hB.trans
        (Int.tdiv_eq_ediv_of_nonneg (Int.mul_pos h.positive hreserveB).le).symm,
      minA_le := hA ▸ hminA, minB_le := hB ▸ hminB, positiveA := hA ▸ hposA,
      creditA := hA ▸ h.creditA.2, positiveB := hB ▸ hposB, creditB := hB ▸ h.creditB.2,
      reserveA := hA ▸ hleA, reserveB := hB ▸ hleB, supply := h.supply, budget := h.budget.2 }

theorem follows_removeLiquidity {s : Store} (hrecords : b.Records s) (hb : b.Backed)
    (context : Context) (shares minA minB deadline : Int64) {x : Stake}
    (hx : b.redemption shares.toInt = x) :
    b.Follows ⟨valid, s⟩
      (.invoke removeLiquidityId context
        [.amount shares, .amount minA, .amount minB, .timestamp deadline])
      (b.RemoveTerms context minA minB deadline x)
      fun account => b.removing account x.amountA x.amountB x.shares := by
  subst hx
  refine hrecords.follows fun ps => permits_removeLiquidity_iff.trans ?_
  constructor
  · rintro ⟨account, amountA, amountB, h, rfl⟩
    rw [h.redemption_eq hb]
    exact ⟨account, h.removeTerms hrecords.bounded, rfl⟩
  · rintro ⟨account, h, rfl⟩
    obtain ⟨amountA, amountB, hremoves⟩ := h.exists_removes hb hrecords.bounded
    rw [hremoves.redemption_eq hb]
    exact ⟨account, amountA, amountB, hremoves, rfl⟩

end Book

/-! ### Runs -/

/-- In every state that a deployed pool reaches, liquidity is added if and only if the terms are
met for the stake that the offer comes to, and nothing changes but what the entries say. What is
taken of each token is positive and no more than was offered. -/
theorem addLiquidity_follows_terms {context : Context} {args : List Value} {d : Deployment Store}
    (h : Deployment.deploy valid ({} : Store) context args = .ok d) (calls : List Call) :
    ∃ b : Book, b.Records (d.after calls).store ∧
      ∀ (context : Context) (offeredA offeredB minA minB deadline : Int64),
        let x := b.addition offeredA.toInt offeredB.toInt
        b.Follows (d.after calls)
          (.invoke addLiquidityId context
            [.amount offeredA, .amount offeredB, .amount minA, .amount minB, .timestamp deadline])
          (b.AddTerms context minA minB deadline x)
          (fun account => b.adding account x.amountA x.amountB x.shares) ∧
        ∀ account, b.AddTerms context minA minB deadline x account →
          (0 < x.amountA ∧ x.amountA ≤ offeredA.toInt) ∧
            0 < x.amountB ∧ x.amountB ≤ offeredB.toInt := by
  obtain ⟨b, s, hafter, hrecords, hb⟩ := exists_backed h calls
  rw [hafter]
  refine ⟨b, hrecords, fun context offeredA offeredB minA minB deadline => ?_⟩
  refine ⟨Book.follows_addLiquidity hrecords hb context _ _ _ _ _ rfl, fun account hterms => ?_⟩
  exact Book.addition_le (hb.live (.inr hterms.reserveB.ne')) hterms.positive

/-- An offer to the open pool of more B than matches the A. -/
def Sample.addition : Call :=
  .invoke addLiquidityId { caller := some maker, timestamp := some 5 }
    [.amount 200, .amount 150, .amount 1, .amount 1, .timestamp 9]

theorem liquidity_added_to_sample_pool :
    ∃ d next, ∃ b : Book, Sample.deployed = .ok d ∧
      (d.after Sample.opening).perform Sample.addition = .ok next ∧
      b.Records (d.after Sample.opening).store ∧
      b.Settles (d.after Sample.opening) next (b.adding Sample.maker 200 100 141) := by
  obtain ⟨d, next, hd, hnext⟩ := Sample.exists_next Sample.addition (by decide +kernel)
  obtain ⟨b, hrecords, hcalls⟩ := addLiquidity_follows_terms hd Sample.opening
  obtain ⟨hA, hB, hsupply⟩ := Sample.opening_numbers hd hrecords
  have hstake : b.addition (200 : Int64).toInt (150 : Int64).toInt = ⟨200, 100, 141⟩ := by
    rw [Book.addition, Book.matchingA, Book.matchingB, Book.stake, Book.stake, hA, hB, hsupply]
    decide
  obtain ⟨hfollows, -⟩ := hcalls { caller := some Sample.maker, timestamp := some 5 } 200 150 1 1 9
  obtain ⟨account, hterms, hsettles⟩ := hfollows.settles next hnext
  obtain rfl : Sample.maker = account := Option.some.inj hterms.caller
  rw [hstake] at hsettles
  exact ⟨d, next, b, hd, hnext, hrecords, hsettles⟩

/-- In every state that a deployed pool reaches, liquidity is removed if and only if the terms are
met for what the shares stand for, and nothing changes but what the entries say. Neither reserve
goes below zero. -/
theorem removeLiquidity_follows_terms {context : Context} {args : List Value}
    {d : Deployment Store}
    (h : Deployment.deploy valid ({} : Store) context args = .ok d) (calls : List Call) :
    ∃ b : Book, b.Records (d.after calls).store ∧
      ∀ (context : Context) (shares minA minB deadline : Int64),
        let x := b.redemption shares.toInt
        b.Follows (d.after calls)
          (.invoke removeLiquidityId context
            [.amount shares, .amount minA, .amount minB, .timestamp deadline])
          (b.RemoveTerms context minA minB deadline x)
          (fun account => b.removing account x.amountA x.amountB x.shares) ∧
        ∀ account, b.RemoveTerms context minA minB deadline x account →
          0 ≤ b.reserve .a - x.amountA ∧ 0 ≤ b.reserve .b - x.amountB := by
  obtain ⟨b, s, hafter, hrecords, hb⟩ := exists_backed h calls
  rw [hafter]
  refine ⟨b, hrecords, fun context shares minA minB deadline => ?_⟩
  refine ⟨Book.follows_removeLiquidity hrecords hb context _ _ _ _ rfl, fun account hterms => ?_⟩
  obtain ⟨hleA, hleB⟩ := hterms.redemption_le hb
  exact ⟨Int.sub_nonneg_of_le hleA, Int.sub_nonneg_of_le hleB⟩

/-- Shares of the open pool that do not stand for whole amounts. -/
def Sample.removal : Call :=
  .invoke removeLiquidityId { caller := some maker, timestamp := some 5 }
    [.amount 100, .amount 1, .amount 1, .timestamp 9]

theorem liquidity_removed_from_sample_pool :
    ∃ d next, ∃ b : Book, Sample.deployed = .ok d ∧
      (d.after Sample.opening).perform Sample.removal = .ok next ∧
      b.Records (d.after Sample.opening).store ∧
      b.Settles (d.after Sample.opening) next (b.removing Sample.maker 141 70 100) := by
  obtain ⟨d, next, hd, hnext⟩ := Sample.exists_next Sample.removal (by decide +kernel)
  obtain ⟨b, hrecords, hcalls⟩ := removeLiquidity_follows_terms hd Sample.opening
  obtain ⟨hA, hB, hsupply⟩ := Sample.opening_numbers hd hrecords
  have hstake : b.redemption (100 : Int64).toInt = ⟨141, 70, 100⟩ := by
    rw [Book.redemption, hA, hB, hsupply]
    decide
  obtain ⟨hfollows, -⟩ := hcalls { caller := some Sample.maker, timestamp := some 5 } 100 1 1 9
  obtain ⟨account, hterms, hsettles⟩ := hfollows.settles next hnext
  obtain rfl : Sample.maker = account := Option.some.inj hterms.caller
  rw [hstake] at hsettles
  exact ⟨d, next, b, hd, hnext, hrecords, hsettles⟩

end ContractMachine.Pool
