import ContractMachine.Proofs.Pool.Runs

/-! Conservation of what a pool holds. For every token, what was paid in and not taken out is what
the escrows and the pool itself have of it; nothing is ever negative; and every share outside the
pool was taken out of an escrow. -/

namespace ContractMachine.Pool

/-- What a call takes out of the share escrows. -/
def sharesTaken (e : Deployment Store × Call) : Int :=
  match e.2 with
  | .withdraw token _ amount _ =>
    if e.1.tokenTrigger? (fun | .onWithdraw var => some var | _ => none) token =
      some (withdrawTrigger .liquidity) then amount.toInt else 0
  | .invoke _ _ _ | .deposit _ _ _ _ => 0

namespace Book

/-- What the opening locks for ever: the minimum of shares. -/
def locked (b : Book) : Asset → Int :=
  Asset.choose 0 0 (bif b.enabled then b.minimum else 0)

/-- What there is of a token in the part it plays. -/
def holdings (b : Book) (t : Asset) : Int := b.escrowed t + b.reserve t + b.locked t

/-- What there is of a token in all the parts that it plays. -/
def custody (b : Book) (token : TokenId) : Int :=
  (if b.token .a = token then b.holdings .a else 0) +
    (if b.token .b = token then b.holdings .b else 0) +
    if b.token .liquidity = token then b.holdings .liquidity else 0

variable {b c : Book}

theorem token_posted (b : Book) (ps : List Posting) : (b.posted ps).token = b.token := by
  induction ps generalizing b with
  | nil => rfl
  | cons p ps ih =>
      rw [posted, List.foldl_cons]
      refine (ih (b.post p)).trans ?_
      cases p <;> rfl

/-- Holdings that move in one part move the custody of the token that plays it. -/
theorem custody_eq_add (htoken : c.token = b.token) (t : Asset) (n : Int)
    (h : ∀ u, c.holdings u = b.holdings u + if u = t then n else 0) (token : TokenId) :
    c.custody token = b.custody token + if b.token t = token then n else 0 := by
  simp only [custody, htoken, h]
  cases t <;> simp only [reduceCtorEq, if_true, if_false] <;> split <;> split <;> split <;> omega

theorem custody_eq (htoken : c.token = b.token) (h : ∀ u, c.holdings u = b.holdings u) :
    c.custody = b.custody := by
  funext token
  simp only [custody, htoken, h]

/-! ### Calls that only move what is there -/

theorem holdings_opening {context : Context} {amountA amountB shares : Int64}
    (h : b.Opens context amountA amountB shares) (hA : b.reserve .a = 0) (hB : b.reserve .b = 0)
    (t : Asset) :
    (b.posted (b.opening amountA.toInt amountB.toInt shares.toInt)).holdings t = b.holdings t := by
  have hclosed := h.closed
  cases t <;> simp [holdings, locked, Asset.choose, posted, post, opening, hA, hB, hclosed] <;>
    omega

theorem holdings_adding (b : Book) (account : Address) (amountA amountB shares : Int) (t : Asset) :
    (b.posted (b.adding account amountA amountB shares)).holdings t = b.holdings t := by
  cases t <;> simp [holdings, locked, posted, post, adding] <;> omega

theorem holdings_removing (b : Book) (account : Address) (amountA amountB shares : Int)
    (t : Asset) :
    (b.posted (b.removing account amountA amountB shares)).holdings t = b.holdings t := by
  cases t <;> simp [holdings, locked, posted, post, removing] <;> omega

theorem holdings_trading (b : Book) (account : Address) (amountIn amountOut : Int) (t : Asset) :
    (b.posted (b.trading account amountIn amountOut)).holdings t = b.holdings t := by
  cases t <;> simp [holdings, locked, posted, post, trading] <;> omega

/-! ### Calls that pay in or take out -/

theorem holdings_escrow (b : Book) (t : Asset) (account : Address) (n : Int) (u : Asset) :
    (b.posted [.escrow t account (b.escrow t account + n)]).holdings u =
      b.holdings u + if u = t then n else 0 := by
  by_cases hu : u = t
  · subst hu
    simp only [holdings, locked, posted, post, List.foldl_cons, List.foldl_nil, if_true]
    omega
  · simp [holdings, locked, posted, post, hu]

theorem holdings_reserve (b : Book) (t : Asset) (n : Int) (u : Asset) :
    (b.posted [.reserve t (b.reserve t + n)]).holdings u =
      b.holdings u + if u = t then n else 0 := by
  by_cases hu : u = t
  · subst hu
    simp only [holdings, locked, posted, post, List.foldl_cons, List.foldl_nil, if_true]
    omega
  · simp [holdings, locked, posted, post, hu]

/-! ### Nothing is negative -/

theorem nonneg_of_permits (hb : b.Every (0 ≤ ·)) {call : Call} {ps : List Posting}
    (h : b.Permits call ps) : ∀ p ∈ ps, p.Every (0 ≤ ·) := by
  have hescrow := hb.escrow
  have hreserve := hb.reserve
  have htrading : ∀ {context deadline account amountIn amountOut},
      b.Trades context deadline account amountIn amountOut →
        ∀ p ∈ b.trading account amountIn.toInt amountOut.toInt, p.Every (0 ≤ ·) := by
    intro context deadline account amountIn amountOut h
    simp only [trading, List.forall_mem_cons]
    exact ⟨Int.sub_nonneg_of_le h.covered, Int.add_nonneg (hescrow _ _) h.positiveOut.le,
      Int.add_nonneg (hreserve _) h.positiveIn.le, Int.sub_nonneg_of_le h.out_lt.le,
      List.forall_mem_nil _⟩
  cases h with
  | supersede signer => simp [Posting.Every]
  | setSwap h =>
      simp only [opening, List.forall_mem_cons]
      exact ⟨Int.sub_nonneg_of_le h.coveredA, Int.sub_nonneg_of_le h.coveredB,
        Int.sub_nonneg_of_le h.budget,
        Int.add_nonneg (hescrow _ _) (Int.sub_nonneg_of_le h.minimum_lt.le), h.positive.le,
        h.positiveA.le, h.positiveB.le, trivial, List.forall_mem_nil _⟩
  | addLiquidity h =>
      simp only [adding, List.forall_mem_cons]
      exact ⟨Int.sub_nonneg_of_le h.coveredA, Int.sub_nonneg_of_le h.coveredB,
        Int.sub_nonneg_of_le h.budget, Int.add_nonneg (hreserve _) h.positiveA.le,
        Int.add_nonneg (hreserve _) h.positiveB.le, Int.add_nonneg hb.supply h.positive.le,
        Int.add_nonneg (hescrow _ _) h.positive.le, List.forall_mem_nil _⟩
  | removeLiquidity h =>
      simp only [removing, List.forall_mem_cons]
      exact ⟨Int.sub_nonneg_of_le h.covered, Int.add_nonneg (hescrow _ _) h.positiveA.le,
        Int.add_nonneg (hescrow _ _) h.positiveB.le, Int.sub_nonneg_of_le h.reserveA,
        Int.sub_nonneg_of_le h.reserveB, Int.sub_nonneg_of_le h.supply,
        Int.add_nonneg (hreserve _) h.positive.le, List.forall_mem_nil _⟩
  | buy h => exact htrading h.toTrades
  | sell h => exact htrading h.toTrades
  | deposit role traded positive credit =>
      simpa [Posting.Every] using Int.add_nonneg (hescrow _ _) positive.le
  | fund role maker positive fits =>
      simpa [Posting.Every] using Int.add_nonneg (hreserve _) positive.le
  | withdraw role positive covered => simpa [Posting.Every] using covered

/-! ### The accounts of a run -/

/-- The book agrees with the calls that went through so far. Before the opening there are no
reserves and no shares. -/
structure Accounted (b : Book) (past : List (Deployment Store × Call)) : Prop where
  custody : ∀ token, b.custody token =
    Deployment.tally (fun e => e.2.deposited token) past -
      Deployment.tally (fun e => e.2.withdrawn token) past
  nonneg : b.Every (0 ≤ ·)
  shares : b.enabled = true →
    b.supply = b.minimum + b.escrowed .liquidity + Deployment.tally sharesTaken past
  closed : b.enabled = false →
    b.reserve .a = 0 ∧ b.reserve .b = 0 ∧ (∀ account, b.escrow .liquidity account = 0) ∧
      b.escrowed .liquidity = 0 ∧ Deployment.tally sharesTaken past = 0

theorem accounted_initial (maker : Address) (token : Asset → TokenId) (minimum : Int) :
    (initial maker token minimum).Accounted [] where
  custody _ := by simp [Book.custody, holdings, initial, locked, Asset.choose]
  nonneg := ⟨le_rfl, fun _ => le_rfl, fun _ _ => le_rfl⟩
  shares h := by cases h
  closed _ := ⟨rfl, rfl, fun _ => rfl, rfl, rfl⟩

theorem Accounted.custody_posted {past : List (Deployment Store × Call)} (hb : b.Accounted past)
    {call : Call} {ps : List Posting} (h : b.Permits call ps) (token : TokenId) :
    (b.posted ps).custody token =
      b.custody token + call.deposited token - call.withdrawn token := by
  have htoken := token_posted b ps
  have hmoved : (∀ t, (b.posted ps).holdings t = b.holdings t) → call.deposited token = 0 →
      call.withdrawn token = 0 → (b.posted ps).custody token =
        b.custody token + call.deposited token - call.withdrawn token := by
    intro hholdings hin hout
    rw [custody_eq htoken hholdings, hin, hout]
    omega
  cases h with
  | supersede signer => exact hmoved (fun t => rfl) rfl rfl
  | setSwap h =>
      obtain ⟨hA, hB, -⟩ := hb.closed h.closed
      exact hmoved (holdings_opening h hA hB) rfl rfl
  | addLiquidity h => exact hmoved (holdings_adding b _ _ _ _) rfl rfl
  | removeLiquidity h => exact hmoved (holdings_removing b _ _ _ _) rfl rfl
  | buy h => exact hmoved (holdings_trading b _ _ _) rfl rfl
  | sell h => exact hmoved (holdings_trading b _ _ _) rfl rfl
  | @deposit paid t account amount context role traded positive credit =>
      rw [custody_eq_add htoken t _ (holdings_escrow b t account _), token_of_role? role]
      simp [Call.deposited, Call.withdrawn]
  | @fund paid account amount context role maker positive fits =>
      rw [custody_eq_add htoken .liquidity _ (holdings_reserve b .liquidity _),
        token_of_role? role]
      simp [Call.deposited, Call.withdrawn]
  | @withdraw taken t account amount context role positive covered =>
      rw [custody_eq_add htoken t (-amount.toInt) (holdings_escrow b t account _),
        token_of_role? role]
      simp only [Call.deposited, Call.withdrawn]
      split <;> omega

theorem sharesTaken_withdraw {s : Store} (hb : b.Shows s.view) (token : TokenId)
    (account : Address) (amount : Int64) (context : Context) :
    sharesTaken (⟨valid, s⟩, .withdraw token account amount context) =
      if b.role? token = some .liquidity then amount.toInt else 0 := by
  have hinj : ∀ t, withdrawTrigger t = withdrawTrigger .liquidity ↔ t = .liquidity := by
    intro t
    cases t <;> decide
  simp only [sharesTaken]
  rw [tokenTrigger?_withdraw hb rfl (fun _ => rfl) (fun _ => rfl)]
  simp [hinj]

theorem Accounted.shares_posted {past : List (Deployment Store × Call)} (hb : b.Accounted past)
    {s : Store} (hrecords : b.Records s) {call : Call} {ps : List Posting}
    (h : b.Permits call ps) (henabled : (b.posted ps).enabled = true) :
    (b.posted ps).supply = (b.posted ps).minimum + (b.posted ps).escrowed .liquidity +
      (Deployment.tally sharesTaken past + sharesTaken (⟨valid, s⟩, call)) := by
  cases h with
  | supersede signer => simpa [posted, post, sharesTaken] using hb.shares henabled
  | setSwap h =>
      obtain ⟨-, -, -, hescrowed, htaken⟩ := hb.closed h.closed
      simp [posted, post, opening, sharesTaken, hescrowed, htaken]
  | addLiquidity h =>
      simp [posted, post, adding, sharesTaken, hb.shares h.enabled]
      omega
  | removeLiquidity h =>
      simp [posted, post, removing, sharesTaken, hb.shares h.enabled]
      omega
  | buy h => simpa [posted, post, trading, sharesTaken] using hb.shares h.enabled
  | sell h => simpa [posted, post, trading, sharesTaken] using hb.shares h.enabled
  | deposit role traded positive credit =>
      simpa [posted, post, sharesTaken, traded.symm] using hb.shares henabled
  | fund role maker positive fits => simpa [posted, post, sharesTaken] using hb.shares henabled
  | @withdraw token t account amount context role positive covered =>
      have hshares := hb.shares henabled
      rw [sharesTaken_withdraw hrecords.toShows, role]
      by_cases ht : t = .liquidity
      · simp [posted, post, ht, hshares]
        omega
      · simpa [posted, post, ht, Ne.symm ht] using hshares

theorem Accounted.closed_posted {past : List (Deployment Store × Call)} (hb : b.Accounted past)
    {s : Store} (hrecords : b.Records s) {call : Call} {ps : List Posting}
    (h : b.Permits call ps) (hclosed : (b.posted ps).enabled = false) :
    (b.posted ps).reserve .a = 0 ∧ (b.posted ps).reserve .b = 0 ∧
      (∀ account, (b.posted ps).escrow .liquidity account = 0) ∧
      (b.posted ps).escrowed .liquidity = 0 ∧
      Deployment.tally sharesTaken past + sharesTaken (⟨valid, s⟩, call) = 0 := by
  cases h with
  | supersede signer => simpa [posted, post, sharesTaken] using hb.closed hclosed
  | setSwap h => simp [posted, post, opening] at hclosed
  | addLiquidity h => simp [posted, post, adding, h.enabled] at hclosed
  | removeLiquidity h => simp [posted, post, removing, h.enabled] at hclosed
  | buy h => simp [posted, post, trading, h.enabled] at hclosed
  | sell h => simp [posted, post, trading, h.enabled] at hclosed
  | deposit role traded positive credit =>
      simpa [posted, post, sharesTaken, traded.symm] using hb.closed hclosed
  | fund role maker positive fits => simpa [posted, post, sharesTaken] using hb.closed hclosed
  | @withdraw token t account amount context role positive covered =>
      obtain ⟨hA, hB, hescrow, hescrowed, htaken⟩ := hb.closed hclosed
      have ht : t ≠ .liquidity := by
        rintro rfl
        rw [hescrow] at covered
        omega
      rw [sharesTaken_withdraw hrecords.toShows, role]
      simpa [posted, post, ht, ht.symm] using ⟨hA, hB, hescrow, hescrowed, htaken⟩

theorem Accounted.posted {past : List (Deployment Store × Call)} (hb : b.Accounted past)
    {s : Store} (hrecords : b.Records s) {call : Call} {ps : List Posting}
    (h : b.Permits call ps) : (b.posted ps).Accounted (past ++ [(⟨valid, s⟩, call)]) where
  custody token := by
    simp only [Deployment.tally_concat]
    rw [hb.custody_posted h, hb.custody]
    omega
  nonneg := hb.nonneg.posted (nonneg_of_permits hb.nonneg h)
  shares henabled := by
    rw [Deployment.tally_concat]
    exact hb.shares_posted hrecords h henabled
  closed hclosed := by
    rw [Deployment.tally_concat]
    exact hb.closed_posted hrecords h hclosed

end Book

/-! ### Runs -/

/-- After every run of a deployed pool, what was paid in of a token and not taken out is what the
pool and the escrows hold of it, and nothing is negative. Once the pool is open, the supply is
the locked minimum, the escrowed shares and the shares that were taken out. -/
theorem custody_conserved {context : Context} {args : List Value} {d : Deployment Store}
    (h : Deployment.deploy valid ({} : Store) context args = .ok d) (calls : List Call) :
    ∃ b : Book, b.Records (d.after calls).store ∧
      (∀ token, Deployment.tally (fun e => e.2.deposited token) (d.history calls) -
          Deployment.tally (fun e => e.2.withdrawn token) (d.history calls) = b.custody token) ∧
      (∀ t account, 0 ≤ b.escrow t account) ∧ (∀ t, 0 ≤ b.reserve t) ∧ 0 ≤ b.supply ∧
      (b.enabled = true → b.supply = b.minimum + b.escrowed .liquidity +
        Deployment.tally sharesTaken (d.history calls)) := by
  obtain ⟨b, s, hafter, hrecords, hb⟩ := records_after Book.accounted_initial
    (fun b past s c ps hb hrecords hpermits => hb.posted hrecords hpermits) h calls
  rw [hafter]
  exact ⟨b, hrecords, fun token => (hb.custody token).symm, hb.nonneg.escrow, hb.nonneg.reserve,
    hb.nonneg.supply, hb.shares⟩

/-- The theorem at a pool that was funded and opened. -/
theorem custody_of_sample_pool :
    ∃ d, Sample.deployed = .ok d ∧ ∃ b : Book, b.Records (d.after Sample.opening).store ∧
      (∀ token, Deployment.tally (fun e => e.2.deposited token) (d.history Sample.opening) -
          Deployment.tally (fun e => e.2.withdrawn token) (d.history Sample.opening) =
        b.custody token) ∧
      (∀ t account, 0 ≤ b.escrow t account) ∧ (∀ t, 0 ≤ b.reserve t) ∧ 0 ≤ b.supply ∧
      b.enabled = true ∧ b.supply = b.minimum + b.escrowed .liquidity +
        Deployment.tally sharesTaken (d.history Sample.opening) := by
  obtain ⟨d, hd, hopen, -⟩ := Sample.exists_deployed
  obtain ⟨b, hrecords, hcustody, hescrow, hreserve, hsupply, hshares⟩ :=
    custody_conserved hd Sample.opening
  have henabled := hopen b hrecords
  exact ⟨d, hd, b, hrecords, hcustody, hescrow, hreserve, hsupply, henabled, hshares henabled⟩

end ContractMachine.Pool
