import ContractMachine.Proofs.Pool.Steps

/-! Runs of a pool. A deployment starts with an empty book, every call that goes through posts to
it, and what the rules keep holds after every run. -/

namespace ContractMachine.Pool

namespace Book

/-- The book of a pool that was just deployed. -/
def initial (maker : Address) (token : Asset → TokenId) (minimum : Int) : Book where
  maker
  token
  enabled := false
  minimum
  supply := 0
  reserve _ := 0
  escrow _ _ := 0
  escrowed _ := 0

theorem isAmount_zero : IsAmount 0 := by
  constructor <;> decide

theorem bounded_initial (maker : Address) (token : Asset → TokenId) (minimum : Int64) :
    (initial maker token minimum.toInt).Bounded where
  minimum := isAmount_toInt minimum
  supply := isAmount_zero
  reserve _ := isAmount_zero
  escrow _ _ := isAmount_zero

/-- Every entry that the rules post is an amount. -/
theorem fits_of_permits {b : Book} (hb : b.Bounded) {c : Call} {ps : List Posting}
    (h : b.Permits c ps) : ∀ p ∈ ps, p.Every IsAmount := by
  have htrading : ∀ {context deadline account amountIn amountOut},
      b.Trades context deadline account amountIn amountOut →
        ∀ p ∈ b.trading account amountIn.toInt amountOut.toInt, p.Every IsAmount := by
    intro context deadline account amountIn amountOut h
    simp only [trading, List.forall_mem_cons]
    exact ⟨(hb.escrow _ _).sub h.positiveIn h.covered, (hb.escrow _ _).add h.positiveOut h.credit,
      (hb.reserve _).add h.positiveIn h.fits, (hb.reserve _).sub h.positiveOut h.out_lt.le,
      List.forall_mem_nil _⟩
  cases h with
  | supersede signer => simp [Posting.Every]
  | @setSwap context amountA amountB shares h =>
      have hminted : 0 < shares.toInt - b.minimum := by
        have := h.minimum_lt
        omega
      simp only [opening, List.forall_mem_cons]
      exact ⟨(hb.escrow _ _).sub h.positiveA h.coveredA, (hb.escrow _ _).sub h.positiveB h.coveredB,
        (hb.reserve _).sub h.positive h.budget, (hb.escrow _ _).add hminted h.credit,
        isAmount_toInt shares, isAmount_toInt amountA, isAmount_toInt amountB, trivial,
        List.forall_mem_nil _⟩
  | addLiquidity h =>
      simp only [adding, List.forall_mem_cons]
      exact ⟨(hb.escrow _ _).sub h.positiveA h.coveredA, (hb.escrow _ _).sub h.positiveB h.coveredB,
        (hb.reserve _).sub h.positive h.budget, (hb.reserve _).add h.positiveA h.fitsA,
        (hb.reserve _).add h.positiveB h.fitsB, hb.supply.add h.positive h.supply,
        (hb.escrow _ _).add h.positive h.credit, List.forall_mem_nil _⟩
  | removeLiquidity h =>
      simp only [removing, List.forall_mem_cons]
      exact ⟨(hb.escrow _ _).sub h.positive h.covered, (hb.escrow _ _).add h.positiveA h.creditA,
        (hb.escrow _ _).add h.positiveB h.creditB, (hb.reserve _).sub h.positiveA h.reserveA,
        (hb.reserve _).sub h.positiveB h.reserveB, hb.supply.sub h.positive h.supply,
        (hb.reserve _).add h.positive h.budget, List.forall_mem_nil _⟩
  | buy h => exact htrading h.toTrades
  | sell h => exact htrading h.toTrades
  | deposit role traded positive credit =>
      simpa [Posting.Every] using (hb.escrow _ _).add positive credit
  | fund role maker positive fits => simpa [Posting.Every] using (hb.reserve _).add positive fits
  | withdraw role positive covered =>
      simpa [Posting.Every] using (hb.escrow _ _).sub positive covered

end Book

theorem Book.Records.posted {b : Book} {s : Store} (h : b.Records s) {c : Call}
    {ps : List Posting} (hpermits : b.Permits c ps) :
    (b.posted ps).Records (s.commit (ps.map Posting.update)) :=
  Book.records_posted h (Book.fits_of_permits h.bounded hpermits)

/-! ### Deployment -/

theorem initTrigger_valid : valid.initTrigger = init := rfl

theorem records_initial (maker : Address) (token : Asset → TokenId) (minimum : Int64) :
    (Book.initial maker token minimum.toInt).Records
      (({} : Store).commit
        [.var tokenAVar (.tokenId (token .a)), .var tokenBVar (.tokenId (token .b)),
          .var liquidityTokenVar (.tokenId (token .liquidity)),
          .var minimumLiquidityVar (.amount minimum), .var makerVar (.address maker),
          .var swapEnabledVar (.boolean false), .var reserveAVar (.amount 0),
          .var reserveBVar (.amount 0), .var totalSupplyVar (.amount 0),
          .var liquidityBudgetVar (.amount 0)]) where
  bounded := Book.bounded_initial maker token minimum
  slots := by
    simp only [Store.var_commit, Book.slots, Book.initial, List.forall_mem_cons,
      Int64.ofInt_toInt]
    exact ⟨rfl, rfl, rfl, rfl, rfl, rfl, rfl, rfl, rfl, rfl, List.forall_mem_nil _⟩
  escrow t account := rfl
  escrowed t := rfl
  listed key value hget := by cases hget

/-- The arguments of a deployment. -/
def initArgs (token : Asset → TokenId) (minimum : Int64) : List Value :=
  [.tokenId (token .a), .tokenId (token .b), .tokenId (token .liquidity), .amount minimum]

/-- A deployment that goes through was signed, its book is the one that its arguments ask for, and
no escrow is set. -/
theorem records_of_deploy {context : Context} {args : List Value} {d : Deployment Store}
    (h : Deployment.deploy valid ({} : Store) context args = .ok d) :
    ∃ maker token minimum, context.signer = some maker ∧ args = initArgs token minimum ∧
      d.contract = valid ∧ (Book.initial maker token minimum.toInt).Records d.store ∧
      d.store.entries = ∅ := by
  rw [Deployment.deploy, initTrigger_valid] at h
  obtain ⟨⟨htypes, -⟩, hrun⟩ := (call_eq_ok_iff (by decide)).mp h
  change args.map Value.type = [.tokenId, .tokenId, .tokenId, .amount] at htypes
  obtain ⟨tokenA, tokenB, liquidityToken, minimum, rfl⟩ : ∃ x y z n,
      args = [.tokenId x, .tokenId y, .tokenId z, .amount n] := by
    simpa [List.map_eq_cons_iff, type_eq_tokenId_iff, type_eq_amount_iff] using htypes
  obtain ⟨maker, hsigner, rfl⟩ := (completes_init tokenA tokenB liquidityToken minimum).mp hrun
  exact ⟨maker, Asset.choose tokenA tokenB liquidityToken, minimum, hsigner, rfl, rfl,
    records_initial .., rfl⟩

/-! ### Runs -/

/-- A property of the book, of the store and of the successful calls so far that every permitted
call keeps holds of some book of every state that a pool reaches from one with the property. -/
theorem records_run {I : Book → Store → List (Deployment Store × Call) → Prop} {b : Book}
    {s : Store} (hrecords : b.Records s) (hstart : I b s [])
    (hstep : ∀ b past s c ps, I b s past → b.Records s → b.Permits c ps →
      I (b.posted ps) (s.commit (ps.map Posting.update)) (past ++ [(⟨valid, s⟩, c)]))
    (calls : List Call) :
    ∃ c t, (Deployment.mk valid s).after calls = ⟨valid, t⟩ ∧ c.Records t ∧
      I c t ((Deployment.mk valid s).history calls) := by
  refine Deployment.run_induction
    (I := fun d past => ∃ b s, d = ⟨valid, s⟩ ∧ b.Records s ∧ I b s past) ?_ ?_ calls
  · exact ⟨b, s, rfl, hrecords, hstart⟩
  · rintro _ past c next ⟨b, s, rfl, hrecords, hI⟩ hperform
    obtain ⟨ps, hpermits, rfl⟩ := (perform_eq_ok_iff hrecords.toShows).mp hperform
    exact ⟨_, _, rfl, hrecords.posted hpermits, hstep b past s c ps hI hrecords hpermits⟩

/-- A property of the book and of the successful calls so far that holds of a new book and that
every permitted call keeps holds of some book of every state that a deployed pool reaches. -/
theorem records_after {I : Book → List (Deployment Store × Call) → Prop}
    (hstart : ∀ maker token minimum, I (.initial maker token minimum) [])
    (hstep : ∀ b past s c ps, I b past → b.Records s → b.Permits c ps →
      I (b.posted ps) (past ++ [(⟨valid, s⟩, c)]))
    {context : Context} {args : List Value} {d : Deployment Store}
    (h : Deployment.deploy valid ({} : Store) context args = .ok d) (calls : List Call) :
    ∃ b s, d.after calls = ⟨valid, s⟩ ∧ b.Records s ∧ I b (d.history calls) := by
  obtain ⟨maker, token, minimum, -, -, hcontract, hrecords, -⟩ := records_of_deploy h
  obtain ⟨contract, s⟩ := d
  obtain rfl : contract = valid := hcontract
  exact records_run (I := fun b _ past => I b past) hrecords (hstart _ _ _) hstep calls

/-! ### A small pool -/

namespace Sample

def maker : Address := ⟨List.replicate 26 1, rfl⟩

def token : Asset → TokenId := Asset.choose ⟨maker, 0⟩ ⟨maker, 1⟩ ⟨maker, 2⟩

def deployed : Except ExecError (Deployment Store) :=
  Deployment.deploy valid {} (.signedBy maker)
    [.tokenId (token .a), .tokenId (token .b), .tokenId (token .liquidity), .amount 10]

/-- The maker pays in, funds the shares and opens the pool. -/
def opening : List Call :=
  [.deposit (token .a) maker 3000 {}, .deposit (token .b) maker 2000 {},
    .deposit (token .liquidity) maker 5000 {},
    .invoke setSwapId (.signedBy maker) [.amount 2000, .amount 1000]]

def trade : Call :=
  .invoke swapExactId { caller := some maker, timestamp := some 5 }
    [.amount 100, .amount 1, .timestamp 9]

theorem exists_deployed : ∃ d, deployed = .ok d ∧
    (∀ b : Book, b.Records (d.after opening).store → b.enabled = true) ∧
      ∃ next, (d.after opening).perform trade = .ok next := by
  have hcheck : (match deployed with
      | .ok d => decide ((d.after opening).store.view.var swapEnabledVar = some (.boolean true)) &&
          ((d.after opening).perform trade).isOk
      | .error _ => false) = true := by decide +kernel
  cases hd : deployed with
  | error e => simp [hd] at hcheck
  | ok d =>
      simp only [hd, Bool.and_eq_true, decide_eq_true_eq] at hcheck
      cases hnext : (d.after opening).perform trade with
      | error e => simp [hnext, Except.isOk, Except.toBool] at hcheck
      | ok next =>
          refine ⟨d, rfl, fun b hb => ?_, next, hnext⟩
          have hshown := hb.toShows.reads.2.1
          exact Value.boolean.inj (Option.some.inj (hshown.symm.trans hcheck.1))

end Sample

end ContractMachine.Pool
