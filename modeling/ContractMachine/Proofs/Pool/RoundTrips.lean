import ContractMachine.Proofs.Pool.Liquidity

/-! Liquidity that is added and removed again. Every quotient is rounded in favour of the pool, so
the new shares fetch no more than what came in for them, in however many pieces they are given
back and by whomever. -/

namespace ContractMachine.Pool

/-! ### What a call moves -/

/-- The amount that a call names first: of a removal, the shares that it gives back. -/
def sharesGiven (e : Deployment Store × Call) : Int :=
  match e.2 with
  | .invoke _ _ (.amount shares :: _) => shares.toInt
  | _ => 0

/-- What a call pays its caller of a token. -/
def payout (t : Asset) (e : Deployment Store × Call) : Int :=
  match e.2.context.caller with
  | some account => escrowOf (e.1.attempt e.2) t account - escrowOf e.1 t account
  | none => 0

/-- What is left of a stake after calls have given back shares and were paid for them. -/
def Stake.less (x : Stake) (past : List (Deployment Store × Call)) : Stake where
  amountA := x.amountA - Deployment.tally (payout .a) past
  amountB := x.amountB - Deployment.tally (payout .b) past
  shares := x.shares - Deployment.tally sharesGiven past

namespace Book

theorem escrows_adding (b : Book) (account : Address) (amountA amountB shares : Int) :
    (b.posted (b.adding account amountA amountB shares)).escrow .a account =
      b.escrow .a account - amountA ∧
    (b.posted (b.adding account amountA amountB shares)).escrow .b account =
      b.escrow .b account - amountB ∧
    (b.posted (b.adding account amountA amountB shares)).escrow .liquidity account =
      b.escrow .liquidity account + shares := by
  simp [posted, post, adding]

theorem escrows_removing (b : Book) (account : Address) (amountA amountB shares : Int) :
    (b.posted (b.removing account amountA amountB shares)).escrow .a account =
      b.escrow .a account + amountA ∧
    (b.posted (b.removing account amountA amountB shares)).escrow .b account =
      b.escrow .b account + amountB := by
  simp [posted, post, removing]

variable {b : Book} {s : Store} {context : Context} {account : Address}

theorem Records.payout_eq (hrecords : b.Records s) {call : Call} {ps : List Posting}
    (h : b.Permits call ps) (hcaller : call.context.caller = some account) (t : Asset) :
    payout t (⟨valid, s⟩, call) = (b.posted ps).escrow t account - b.escrow t account := by
  have hattempt : (Deployment.mk valid s).attempt call = settled s ps := by
    rw [Deployment.attempt, perform_of_permits hrecords.toShows h]
  have hposted : (b.posted ps).Records (settled s ps).store := hrecords.posted h
  simp only [payout, hcaller, hattempt]
  rw [hposted.escrowOf_eq, hrecords.escrowOf_eq (d := ⟨valid, s⟩)]

/-! ### What shares stand for -/

/-- The shares of the stake are among the supply and stand for no more than its amounts. -/
structure Covers (b : Book) (x : Stake) : Prop where
  supply : x.shares ≤ b.supply
  nonnegA : 0 ≤ x.amountA
  nonnegB : 0 ≤ x.amountB
  worthA : x.shares * b.reserve .a ≤ x.amountA * b.supply
  worthB : x.shares * b.reserve .b ≤ x.amountB * b.supply

/-- Where some of the shares are paid at most their part, that is within what all of them stand
for. -/
theorem paid_le {shares supply reserve amount given paid : Int} (hsupply : 0 < supply)
    (hreserve : 0 ≤ reserve) (hworth : shares * reserve ≤ amount * supply)
    (hgiven : given ≤ shares) (hpaid : paid * supply ≤ given * reserve) : paid ≤ amount := by
  refine le_of_mul_le_mul_right ?_ hsupply
  calc paid * supply ≤ given * reserve := hpaid
    _ ≤ shares * reserve := Int.mul_le_mul_of_nonneg_right hgiven hreserve
    _ ≤ amount * supply := hworth

/-- What rounding leaves in the pool goes to all shares, of which those that are left are only
some; so these stand for no more than what is left of the amount. -/
theorem worth_left_le {shares supply reserve amount given paid : Int} (hsupply : 0 < supply)
    (hshares : shares ≤ supply) (hworth : shares * reserve ≤ amount * supply)
    (hgiven : given ≤ shares) (hpaid : paid * supply ≤ given * reserve) :
    (shares - given) * (reserve - paid) ≤ (amount - paid) * (supply - given) := by
  have hrest := Int.mul_nonneg (Int.sub_nonneg_of_le hworth)
    (Int.sub_nonneg_of_le (hgiven.trans hshares))
  have hrounded := Int.mul_nonneg (Int.sub_nonneg_of_le hshares) (Int.sub_nonneg_of_le hpaid)
  refine le_of_mul_le_mul_left ?_ hsupply
  linarith

theorem Adds.covers {offeredA offeredB minA minB deadline amountA amountB shares : Int64}
    (h : b.Adds context offeredA offeredB minA minB deadline account amountA amountB shares)
    (hsupply : 0 ≤ b.supply) :
    (b.posted (b.adding account amountA.toInt amountB.toInt shares.toInt)).Covers
      ⟨amountA.toInt, amountB.toInt, shares.toInt⟩ := by
  obtain ⟨hA, hB, hT⟩ := reserves_adding b account amountA.toInt amountB.toInt shares.toInt
  obtain ⟨hleA, hleB⟩ := h.mul_shares_le hsupply
  refine ⟨?_, h.positiveA.le, h.positiveB.le, ?_, ?_⟩
  · rw [hT]
    exact Int.le_add_of_nonneg_left hsupply
  · rw [hA, hT]
    linarith
  · rw [hB, hT]
    linarith

/-- A removal within the shares of a covered stake leaves the rest of the stake covered. -/
theorem Covers.removing {x : Stake} (hx : b.Covers x) (hb : b.Backed)
    {shares minA minB deadline amountA amountB : Int64}
    (h : b.Removes context shares minA minB deadline account amountA amountB)
    (hle : shares.toInt ≤ x.shares) :
    (b.posted (b.removing account amountA.toInt amountB.toInt shares.toInt)).Covers
      ⟨x.amountA - amountA.toInt, x.amountB - amountB.toInt, x.shares - shares.toInt⟩ := by
  have hlive := hb.live (.inl h.supply_ne)
  obtain ⟨hpaidA, hpaidB⟩ := h.amount_mul_le hlive
  obtain ⟨hreserveA, hreserveB, hsupply⟩ := hlive
  obtain ⟨hA, hB, hT⟩ := reserves_removing b account amountA.toInt amountB.toInt shares.toInt
  refine ⟨?_, ?_, ?_, ?_, ?_⟩
  · rw [hT]
    exact Int.sub_le_sub_right hx.supply _
  · exact Int.sub_nonneg_of_le (paid_le hsupply hreserveA.le hx.worthA hle hpaidA)
  · exact Int.sub_nonneg_of_le (paid_le hsupply hreserveB.le hx.worthB hle hpaidB)
  · rw [hA, hT]
    exact worth_left_le hsupply hx.supply hx.worthA hle hpaidA
  · rw [hB, hT]
    exact worth_left_le hsupply hx.supply hx.worthB hle hpaidB

/-! ### Runs of removals -/

/-- As long as only removals go through, and within the shares of the stake, what is left of it is
covered. -/
structure Redeeming (x : Stake) (b : Book) (past : List (Deployment Store × Call)) : Prop where
  backed : b.Backed
  covers : (∀ e ∈ past, e.2.Invokes removeLiquidityId) →
    Deployment.tally sharesGiven past ≤ x.shares → b.Covers (x.less past)

theorem Redeeming.posted {x : Stake} {past : List (Deployment Store × Call)}
    (hb : b.Redeeming x past) (hrecords : b.Records s) {call : Call} {ps : List Posting}
    (h : b.Permits call ps) : (b.posted ps).Redeeming x (past ++ [(⟨valid, s⟩, call)]) where
  backed := hb.backed.posted h
  covers hremovals hshares := by
    obtain ⟨hpast, hcall⟩ := List.forall_mem_append.mp hremovals
    have hinvokes : call.Invokes removeLiquidityId := hcall _ List.mem_cons_self
    cases h with
    | @removeLiquidity context shares minA minB deadline account amountA amountB h =>
        have hpayout := hrecords.payout_eq (.removeLiquidity h) h.caller
        obtain ⟨hA, hB⟩ := b.escrows_removing account amountA.toInt amountB.toInt shares.toInt
        have hpositive := h.positive
        rw [Deployment.tally_concat] at hshares
        simp only [sharesGiven] at hshares
        have hcovers := hb.covers hpast (by omega)
        have hnext := hcovers.removing hb.backed h (by simp only [Stake.less]; omega)
        simpa [Stake.less, sharesGiven, hpayout, hA, hB, Int.sub_sub] using hnext
    | _ => simp [Call.Invokes, supersedeId, setSwapId, addLiquidityId, removeLiquidityId,
        swapForExactId, swapExactId] at hinvokes

/-- Removals within the shares of a covered stake pay out no more than its amounts. -/
theorem Covers.payouts_le {x : Stake} (hx : b.Covers x) (hb : b.Backed) (hrecords : b.Records s)
    {calls : List Call}
    (hremovals : ∀ e ∈ (Deployment.mk valid s).history calls, e.2.Invokes removeLiquidityId)
    (hgiven : Deployment.tally sharesGiven ((Deployment.mk valid s).history calls) ≤ x.shares) :
    Deployment.tally (payout .a) ((Deployment.mk valid s).history calls) ≤ x.amountA ∧
      Deployment.tally (payout .b) ((Deployment.mk valid s).history calls) ≤ x.amountB := by
  have hstart : b.Redeeming x [] := ⟨hb, fun _ _ => by simpa [Stake.less] using hx⟩
  obtain ⟨c, t, -, -, hc⟩ := records_run (I := fun c _ past => c.Redeeming x past) hrecords hstart
    (fun _ _ _ _ _ hI hrecords hpermits => hI.posted hrecords hpermits) calls
  have hcovers := hc.covers hremovals hgiven
  exact ⟨Int.le_of_sub_nonneg hcovers.nonnegA, Int.le_of_sub_nonneg hcovers.nonnegB⟩

end Book

/-- Where a caller has added liquidity to a deployed pool, in any state that it reaches, and only
removals go through from then on that give back at most as many shares as were made, these pay out
no more of either token than the addition took. -/
theorem round_trips_create_no_value {context : Context} {args : List Value}
    {d : Deployment Store}
    (h : Deployment.deploy valid ({} : Store) context args = .ok d) (calls : List Call)
    {adder : Context} {offeredA offeredB minA minB deadline : Int64} {added : Deployment Store}
    (hadd : (d.after calls).perform (.invoke addLiquidityId adder
      [.amount offeredA, .amount offeredB, .amount minA, .amount minB, .timestamp deadline]) =
        .ok added) :
    ∃ account, adder.caller = some account ∧
      ∀ later : List Call, (∀ e ∈ added.history later, e.2.Invokes removeLiquidityId) →
        Deployment.tally sharesGiven (added.history later) ≤
          escrowOf added .liquidity account - escrowOf (d.after calls) .liquidity account →
        ∀ t ∈ [Asset.a, Asset.b], Deployment.tally (payout t) (added.history later) ≤
          escrowOf (d.after calls) t account - escrowOf added t account := by
  obtain ⟨b, s, hafter, hrecords, hb⟩ := exists_backed h calls
  rw [hafter] at hadd ⊢
  obtain ⟨ps, hpermits, rfl⟩ := (perform_eq_ok_iff hrecords.toShows).mp hadd
  obtain ⟨account, amountA, amountB, shares, hadds, rfl⟩ :=
    Book.permits_addLiquidity_iff.mp hpermits
  have hadded := hrecords.posted hpermits
  have hcovers := hadds.covers (hb.live (.inr hadds.reserveB.ne')).2.2.le
  refine ⟨account, hadds.caller, fun later hremovals hgiven => ?_⟩
  -- the amounts of the stake are what the escrows of the account show
  have hbefore := hrecords.escrowOf_eq (d := ⟨valid, s⟩)
  have hafter := hadded.escrowOf_eq (d := settled s _)
  obtain ⟨hA, hB, hL⟩ := b.escrows_adding account amountA.toInt amountB.toInt shares.toInt
  simp only [hbefore, hafter, hL, add_sub_cancel_left] at hgiven
  obtain ⟨hleA, hleB⟩ := hcovers.payouts_le (hb.posted hpermits) hadded hremovals hgiven
  simp only [List.forall_mem_cons, hbefore, hafter, hA, hB, sub_sub_cancel]
  exact ⟨hleA, hleB, List.forall_mem_nil _⟩

/-- The shares of the sample addition, given back in two pieces. -/
def Sample.removals : List Call :=
  [Sample.removal, .invoke removeLiquidityId { caller := some maker, timestamp := some 6 }
    [.amount 41, .amount 1, .amount 1, .timestamp 9]]

/-- The theorem where each piece is rounded: 199 of the 200 and 99 of the 100 come back. -/
theorem sample_round_trip :
    ∃ d added, Sample.deployed = .ok d ∧
      (d.after Sample.opening).perform Sample.addition = .ok added ∧
      Deployment.tally sharesGiven (added.history Sample.removals) = 141 ∧
      ∀ t ∈ [Asset.a, Asset.b], Deployment.tally (payout t) (added.history Sample.removals) ≤
        escrowOf (d.after Sample.opening) t Sample.maker - escrowOf added t Sample.maker := by
  have hleads : Sample.leadsTo Sample.opening Sample.addition (fun d added =>
      decide ((∀ e ∈ added.history Sample.removals, e.2.Invokes removeLiquidityId) ∧
        Deployment.tally sharesGiven (added.history Sample.removals) = 141 ∧
        escrowOf added .liquidity Sample.maker -
          escrowOf (d.after Sample.opening) .liquidity Sample.maker = 141)) = true := by
    decide +kernel
  obtain ⟨d, added, hd, hadded, hcheck⟩ := Sample.exists_of_leadsTo hleads
  obtain ⟨hremovals, hgiven, hmade⟩ := of_decide_eq_true hcheck
  obtain ⟨account, hcaller, hpayouts⟩ := round_trips_create_no_value hd Sample.opening hadded
  obtain rfl : Sample.maker = account := Option.some.inj hcaller
  exact ⟨d, added, hd, hadded, hgiven, hpayouts Sample.removals hremovals (by omega)⟩

end ContractMachine.Pool
