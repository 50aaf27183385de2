import ContractMachine.Proofs.Pool.Custody
import ContractMachine.Proofs.Pool.Liquidity
import Mathlib.Data.Int.Sqrt

/-! The terms on which a pool is opened. -/

namespace ContractMachine.Pool

/-- The first stake of a pool: its shares number the root of the product, rounded down. -/
def Stake.first (amountA amountB : Int) : Stake where
  amountA
  amountB
  shares := Int.sqrt (amountA * amountB)

/-- The root is the one number whose square does not exceed `n` and whose successor's does. -/
theorem eq_sqrt_iff {n r : Int} (hn : 0 ≤ n) :
    r = Int.sqrt n ↔ r * r ≤ n ∧ n < (r + 1) * (r + 1) := by
  obtain ⟨m, rfl⟩ := Int.eq_ofNat_of_zero_le hn
  rw [Int.sqrt_natCast]
  constructor
  · rintro rfl
    exact ⟨by exact_mod_cast Nat.sqrt_le m, by exact_mod_cast Nat.lt_succ_sqrt m⟩
  · rintro ⟨hle, hlt⟩
    have hr : 0 ≤ r := by
      have hsquare : r * r < (r + 1) * (r + 1) := hle.trans_lt hlt
      linarith
    obtain ⟨k, rfl⟩ := Int.eq_ofNat_of_zero_le hr
    exact_mod_cast Nat.eq_sqrt.mpr ⟨by exact_mod_cast hle, by exact_mod_cast hlt⟩

namespace Book

/-- The terms on which a pool is opened with a stake. -/
structure OpenTerms (b : Book) (context : Context) (x : Stake) (account : Address) : Prop where
  caller : context.caller = some account
  maker : account = b.maker
  closed : b.enabled = false
  positiveA : 0 < x.amountA
  positiveB : 0 < x.amountB
  coveredA : x.amountA ≤ b.escrow .a account
  coveredB : x.amountB ≤ b.escrow .b account
  minimum_lt : b.minimum < x.shares
  budget : x.shares ≤ b.reserve .liquidity
  minted : IsAmount (x.shares - b.minimum)

variable {b : Book} {context : Context} {account : Address} {amountA amountB shares : Int64}

theorem Opens.first_eq (h : b.Opens context amountA amountB shares) :
    Stake.first amountA.toInt amountB.toInt = ⟨amountA.toInt, amountB.toInt, shares.toInt⟩ := by
  have hproduct := (Int.mul_pos h.positiveA h.positiveB).le
  rw [Stake.first, (eq_sqrt_iff hproduct).mpr ⟨h.root_le, h.lt_root⟩]

theorem Opens.openTerms (h : b.Opens context amountA amountB shares) :
    b.OpenTerms context ⟨amountA.toInt, amountB.toInt, shares.toInt⟩ b.maker :=
  { h with
    maker := rfl
    minted := ⟨(show (-9223372036854775808 : Int) ≤ 0 by decide).trans
      (Int.sub_nonneg_of_le h.minimum_lt.le), h.minted⟩ }

/-- A closed pool has given out no shares, so those of the opening fit into the escrow if they fit
at all. The root itself fits since the budget covers it. -/
theorem OpenTerms.exists_opens (hbounded : b.Bounded)
    (hclosed : b.enabled = false → ∀ account, b.escrow .liquidity account = 0)
    (h : b.OpenTerms context (Stake.first amountA.toInt amountB.toInt) account) :
    ∃ shares, b.Opens context amountA amountB shares := by
  obtain rfl := h.maker
  have hproduct : 0 < amountA.toInt * amountB.toInt := Int.mul_pos h.positiveA h.positiveB
  have hnonneg : 0 ≤ (Stake.first amountA.toInt amountB.toInt).shares := Int.sqrt_nonneg _
  have hbudget := h.budget.trans_lt (hbounded.reserve .liquidity).2
  obtain ⟨shares, hshares⟩ :
      ∃ n : Int64, n.toInt = (Stake.first amountA.toInt amountB.toInt).shares :=
    IsAmount.exists_toInt ⟨by omega, hbudget⟩
  obtain ⟨hroot, hlt⟩ := (eq_sqrt_iff hproduct.le).mp hshares
  have hpositive : 0 < shares.toInt := by
    -- a root of zero would be that of a product below one
    by_contra hzero
    obtain hzero : shares.toInt = 0 := by omega
    rw [hzero] at hlt
    omega
  refine ⟨shares, ?_⟩
  exact
    { caller := h.caller, closed := h.closed, positiveA := h.positiveA, positiveB := h.positiveB,
      coveredA := h.coveredA, coveredB := h.coveredB, positive := hpositive, root_le := hroot,
      lt_root := hlt, minimum_lt := hshares ▸ h.minimum_lt, budget := hshares ▸ h.budget,
      minted := hshares ▸ h.minted.2,
      credit := by
        rw [hclosed h.closed, Int.zero_add, hshares]
        exact h.minted.2 }

theorem follows_setSwap {s : Store} (hrecords : b.Records s)
    (hclosed : b.enabled = false → ∀ account, b.escrow .liquidity account = 0)
    (context : Context) (amountA amountB : Int64) {x : Stake}
    (hx : Stake.first amountA.toInt amountB.toInt = x) :
    b.Follows ⟨valid, s⟩ (.invoke setSwapId context [.amount amountA, .amount amountB])
      (b.OpenTerms context x) fun _ => b.opening x.amountA x.amountB x.shares := by
  subst hx
  refine hrecords.follows fun ps => permits_setSwap_iff.trans ?_
  constructor
  · rintro ⟨shares, h, rfl⟩
    rw [h.first_eq]
    exact ⟨b.maker, h.openTerms, rfl⟩
  · rintro ⟨account, h, rfl⟩
    obtain ⟨shares, hopens⟩ := h.exists_opens hrecords.bounded hclosed
    rw [hopens.first_eq]
    exact ⟨shares, hopens, rfl⟩

end Book

/-! ### Runs -/

/-- In every state that a deployed pool reaches, it is opened if and only if the terms are met for
the first stake, and nothing changes but what the entries say. The shares of the stake are the one
number that is the root of the product, rounded down. -/
theorem setSwap_follows_terms {context : Context} {args : List Value} {d : Deployment Store}
    (h : Deployment.deploy valid ({} : Store) context args = .ok d) (calls : List Call) :
    ∃ b : Book, b.Records (d.after calls).store ∧
      ∀ (context : Context) (amountA amountB : Int64),
        let x := Stake.first amountA.toInt amountB.toInt
        b.Follows (d.after calls)
          (.invoke setSwapId context [.amount amountA, .amount amountB])
          (b.OpenTerms context x) (fun _ => b.opening x.amountA x.amountB x.shares) ∧
        (0 ≤ amountA.toInt * amountB.toInt → ∀ n : Int,
          n = x.shares ↔ n * n ≤ amountA.toInt * amountB.toInt ∧
            amountA.toInt * amountB.toInt < (n + 1) * (n + 1)) := by
  obtain ⟨b, s, hafter, hrecords, hb⟩ := records_after Book.accounted_initial
    (fun b past s c ps hb hrecords hpermits => hb.posted hrecords hpermits) h calls
  have hclosed : b.enabled = false → ∀ account, b.escrow .liquidity account = 0 :=
    fun henabled => (hb.closed henabled).2.2.1
  rw [hafter]
  refine ⟨b, hrecords, fun context amountA amountB => ?_⟩
  exact ⟨Book.follows_setSwap hrecords hclosed context _ _ rfl, fun hproduct _ =>
    eq_sqrt_iff hproduct⟩

namespace Sample

/-- What comes before the opening: the maker pays in and funds the shares. -/
def funding : List Call := opening.take 3

/-- The opening itself, with amounts whose product is no square. -/
def first : Call := .invoke setSwapId (.signedBy maker) [.amount 2000, .amount 1000]

end Sample

theorem sample_pool_opens :
    ∃ d next, ∃ b : Book, Sample.deployed = .ok d ∧
      (d.after Sample.funding).perform Sample.first = .ok next ∧
      b.Records (d.after Sample.funding).store ∧
      b.Settles (d.after Sample.funding) next (b.opening 2000 1000 1414) := by
  have hleads : Sample.leadsTo Sample.funding Sample.first (fun _ _ => true) = true := by
    decide +kernel
  obtain ⟨d, next, hd, hnext, -⟩ := Sample.exists_of_leadsTo hleads
  obtain ⟨b, hrecords, hcalls⟩ := setSwap_follows_terms hd Sample.funding
  obtain ⟨hfollows, hroot⟩ := hcalls (.signedBy Sample.maker) 2000 1000
  obtain ⟨account, -, hsettles⟩ := hfollows.settles next hnext
  have hshares := (hroot (by decide) 1414).mpr (by decide)
  rw [← hshares] at hsettles
  exact ⟨d, next, b, hd, hnext, hrecords, hsettles⟩

end ContractMachine.Pool
