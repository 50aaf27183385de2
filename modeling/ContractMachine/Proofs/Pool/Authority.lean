import ContractMachine.Proofs.Pool.Custody

/-! Who governs a pool, and what it goes through. The tokens and the locked minimum stay as they
were deployed, only the maker hands the pool on and opens it, and until then it has no shares. -/

namespace ContractMachine.Pool

namespace Book

variable {b c : Book} {call : Call} {ps : List Posting}

/-! ### What one call may do -/

/-- The maker pays share tokens in, and the budget grows by them. -/
def FundedBy (b c : Book) (call : Call) : Prop :=
  ∃ amount context, call = .deposit (b.token .liquidity) b.maker amount context ∧
    c.reserve .liquidity = b.reserve .liquidity + amount.toInt

/-- Shares are given back, and the budget grows by those that are burnt. -/
def BurntBy (b c : Book) (call : Call) : Prop :=
  ∃ context shares rest, call = .invoke removeLiquidityId context (.amount shares :: rest) ∧
    c.reserve .liquidity = b.reserve .liquidity + shares.toInt ∧
    c.supply = b.supply - shares.toInt

/-- The call that leads from the first book to the second keeps to the authority of the maker. -/
structure Governs (b c : Book) (call : Call) : Prop where
  maker : c.maker = b.maker ∨ call.Invokes supersedeId
  supersede : ∀ context args, call = .invoke supersedeId context args →
    context.signer = some b.maker ∧ args = [.address c.maker]
  enabled : c.enabled = b.enabled ∨ call.Invokes setSwapId
  setSwap : ∀ context args, call = .invoke setSwapId context args →
    context.caller = some b.maker ∧ b.enabled = false ∧ c.enabled = true
  budget : c.reserve .liquidity ≤ b.reserve .liquidity ∨ b.FundedBy c call ∨ b.BurntBy c call

theorem maker_posted (h : b.Permits call ps) :
    (b.posted ps).maker = b.maker ∨ call.Invokes supersedeId := by
  cases h with
  | supersede signer => exact .inr rfl
  | _ => exact .inl (by simp [posted, post, opening, adding, removing, trading])

theorem enabled_posted (h : b.Permits call ps) :
    (b.posted ps).enabled = b.enabled ∨ call.Invokes setSwapId := by
  cases h with
  | setSwap h => exact .inr rfl
  | _ => exact .inl (by simp [posted, post, adding, removing, trading])

theorem signer_of_supersede (h : b.Permits call ps) {context : Context} {args : List Value}
    (hcall : call = .invoke supersedeId context args) :
    context.signer = some b.maker ∧ args = [.address (b.posted ps).maker] := by
  cases h with
  | supersede signer =>
      obtain ⟨-, rfl, rfl⟩ := Call.invoke.inj hcall
      exact ⟨signer, rfl⟩
  | _ => simp [supersedeId, setSwapId, addLiquidityId, removeLiquidityId, swapForExactId,
      swapExactId] at hcall

theorem caller_of_setSwap (h : b.Permits call ps) {context : Context} {args : List Value}
    (hcall : call = .invoke setSwapId context args) :
    context.caller = some b.maker ∧ b.enabled = false ∧ (b.posted ps).enabled = true := by
  cases h with
  | setSwap h =>
      obtain ⟨-, rfl, rfl⟩ := Call.invoke.inj hcall
      exact ⟨h.caller, h.closed, rfl⟩
  | _ => simp [supersedeId, setSwapId, addLiquidityId, removeLiquidityId, swapForExactId,
      swapExactId] at hcall

theorem budget_posted (h : b.Permits call ps) :
    (b.posted ps).reserve .liquidity ≤ b.reserve .liquidity ∨ b.FundedBy (b.posted ps) call ∨
      b.BurntBy (b.posted ps) call := by
  cases h with
  | supersede signer => exact .inl le_rfl
  | setSwap h =>
      have hpositive := h.positive
      left
      simp [posted, post, opening]
      omega
  | addLiquidity h =>
      have hpositive := h.positive
      left
      simp [posted, post, adding]
      omega
  | @removeLiquidity context shares minA minB deadline account amountA amountB h =>
      right
      right
      exact ⟨context, shares, _, rfl, by simp [posted, post, removing],
        by simp [posted, post, removing]⟩
  | buy h => exact .inl (by simp [posted, post, trading])
  | sell h => exact .inl (by simp [posted, post, trading])
  | deposit role traded positive credit => exact .inl le_rfl
  | @fund token account amount context role maker positive fits =>
      right
      left
      obtain rfl := maker
      obtain rfl := token_of_role? role
      exact ⟨amount, context, rfl, by simp [posted, post]⟩
  | withdraw role positive covered => exact .inl le_rfl

theorem governs_of_permits (h : b.Permits call ps) : b.Governs (b.posted ps) call where
  maker := maker_posted h
  supersede _ _ := signer_of_supersede h
  enabled := enabled_posted h
  setSwap _ _ := caller_of_setSwap h
  budget := budget_posted h

/-! ### The life of a pool -/

/-- A call that leaves the pool closed posts nothing to the shares. -/
theorem Accounted.stays_closed {past : List (Deployment Store × Call)} (hb : b.Accounted past)
    (h : b.Permits call ps) (hclosed : (b.posted ps).enabled = false) :
    b.enabled = false ∧ (b.posted ps).supply = b.supply ∧
      ∀ account n, .escrow .liquidity account n ∉ ps := by
  cases h with
  | supersede signer => exact ⟨hclosed, rfl, by simp⟩
  | setSwap h => simp [Book.posted, post, opening] at hclosed
  | addLiquidity h => simp [Book.posted, post, adding, h.enabled] at hclosed
  | removeLiquidity h => simp [Book.posted, post, removing, h.enabled] at hclosed
  | buy h => simp [Book.posted, post, trading, h.enabled] at hclosed
  | sell h => simp [Book.posted, post, trading, h.enabled] at hclosed
  | deposit role traded positive credit => exact ⟨hclosed, rfl, by simp [traded.symm]⟩
  | fund role maker positive fits => exact ⟨hclosed, rfl, by simp⟩
  | @withdraw token t account amount context role positive covered =>
      obtain ⟨-, -, hescrow, -⟩ := hb.closed hclosed
      have ht : t ≠ .liquidity := by
        rintro rfl
        rw [hescrow] at covered
        omega
      exact ⟨hclosed, rfl, by simp [ht.symm]⟩

/-- The state of a pool that was deployed with these tokens and this minimum. It has been opened
once or never, and before that nothing was recorded of shares. -/
structure Chartered (token : Asset → TokenId) (minimum : Int) (b : Book) (s : Store)
    (past : List (Deployment Store × Call)) : Prop extends b.Accounted past where
  token_eq : b.token = token
  minimum_eq : b.minimum = minimum
  opened : Deployment.timesInvoked setSwapId past = if b.enabled then 1 else 0
  supply_closed : b.enabled = false → b.supply = 0
  unset : b.enabled = false → ∀ key, s.view.entry escrowLiquidityMap key = none

theorem chartered_initial (maker : Address) (token : Asset → TokenId) (minimum : Int) {s : Store}
    (hs : s.entries = ∅) : (initial maker token minimum).Chartered token minimum s [] where
  toAccounted := accounted_initial maker token minimum
  token_eq := rfl
  minimum_eq := rfl
  opened := rfl
  supply_closed _ := rfl
  unset _ key := by
    rw [Store.view, hs]
    rfl

theorem opened_posted {past : List (Deployment Store × Call)}
    (hopened : Deployment.timesInvoked setSwapId past = if b.enabled then 1 else 0)
    (h : b.Permits call ps) (s : Store) :
    Deployment.timesInvoked setSwapId (past ++ [(⟨valid, s⟩, call)]) =
      if (b.posted ps).enabled then 1 else 0 := by
  rw [Deployment.timesInvoked_concat, hopened]
  by_cases hcall : call.Invokes setSwapId
  · cases call with
    | invoke id context args =>
        obtain ⟨-, hclosed, hopen⟩ := caller_of_setSwap h (congrArg (Call.invoke · context args) hcall)
        simp [hcall, hclosed, hopen]
    | deposit token account amount context => cases hcall
    | withdraw token account amount context => cases hcall
  · rw [(enabled_posted h).resolve_right hcall]
    simp [hcall]

theorem Chartered.posted {token : Asset → TokenId} {minimum : Int} {s : Store}
    {past : List (Deployment Store × Call)} (hb : b.Chartered token minimum s past)
    (hrecords : b.Records s) (h : b.Permits call ps) :
    (b.posted ps).Chartered token minimum (s.commit (ps.map Posting.update))
      (past ++ [(⟨valid, s⟩, call)]) where
  toAccounted := hb.toAccounted.posted hrecords h
  token_eq := (token_posted b ps).trans hb.token_eq
  minimum_eq := (minimum_posted b ps).trans hb.minimum_eq
  opened := opened_posted hb.opened h s
  supply_closed hclosed := by
    obtain ⟨hbefore, hsupply, -⟩ := hb.stays_closed h hclosed
    rw [hsupply, hb.supply_closed hbefore]
  unset hclosed key := by
    obtain ⟨hbefore, -, hposted⟩ := hb.stays_closed h hclosed
    rw [Store.entry_commit_of_not_mem, hb.unset hbefore]
    intro value hmem
    obtain ⟨account, n, -, hescrow⟩ := Posting.mem_of_entry_mem (t := .liquidity) hmem
    exact hposted account n hescrow

end Book

/-- Over every run of a deployed pool the tokens and the minimum are those of its deployment, and
it is opened at most once. Until then it has neither reserves nor shares, and no escrow of shares
was ever set. Every call that goes through keeps to the authority of the maker of the moment. -/
theorem maker_governs_life_cycle {context : Context} {args : List Value} {d : Deployment Store}
    (h : Deployment.deploy valid ({} : Store) context args = .ok d) (calls : List Call) :
    ∃ token minimum, args = initArgs token minimum ∧
      ∃ b : Book, b.Records (d.after calls).store ∧ b.token = token ∧ b.minimum = minimum.toInt ∧
        Deployment.timesInvoked setSwapId (d.history calls) = (if b.enabled then 1 else 0) ∧
        (b.enabled = false → b.reserve .a = 0 ∧ b.reserve .b = 0 ∧ b.supply = 0 ∧
          ∀ key, (d.after calls).store.view.entry escrowLiquidityMap key = none) ∧
        ∀ call next, (d.after calls).perform call = .ok next →
          ∃ c : Book, c.Records next.store ∧ b.Governs c call := by
  obtain ⟨maker, token, minimum, -, hargs, hcontract, hrecords, hempty⟩ := records_of_deploy h
  obtain ⟨contract, start⟩ := d
  obtain rfl : contract = valid := hcontract
  obtain ⟨b, s, hafter, hb, hchartered⟩ :=
    records_run (I := Book.Chartered token minimum.toInt) hrecords
      (Book.chartered_initial maker token minimum.toInt hempty)
      (fun b past s call ps hb hrecords hpermits => hb.posted hrecords hpermits) calls
  rw [hafter]
  refine ⟨token, minimum, hargs, b, hb, hchartered.token_eq, hchartered.minimum_eq,
    hchartered.opened, ?_, ?_⟩
  · intro hclosed
    obtain ⟨hA, hB, -⟩ := hchartered.closed hclosed
    exact ⟨hA, hB, hchartered.supply_closed hclosed, hchartered.unset hclosed⟩
  · intro call next hperform
    obtain ⟨ps, hpermits, rfl⟩ := (perform_eq_ok_iff hb.toShows).mp hperform
    exact ⟨b.posted ps, hb.posted hpermits, Book.governs_of_permits hpermits⟩

/-- The theorem at a pool that was opened and then trades. -/
theorem sample_pool_opened_once :
    ∃ d next, Sample.deployed = .ok d ∧ (d.after Sample.opening).perform Sample.trade = .ok next ∧
      ∃ b c : Book, b.Records (d.after Sample.opening).store ∧ b.enabled = true ∧
        Deployment.timesInvoked setSwapId (d.history Sample.opening) = 1 ∧
        c.Records next.store ∧ b.Governs c Sample.trade := by
  obtain ⟨d, hd, hopen, next, hnext⟩ := Sample.exists_deployed
  obtain ⟨token, minimum, -, b, hb, -, -, hopened, -, hgoverns⟩ :=
    maker_governs_life_cycle hd Sample.opening
  have henabled := hopen b hb
  rw [henabled] at hopened
  obtain ⟨c, hc, hgoverned⟩ := hgoverns Sample.trade next hnext
  exact ⟨d, next, hd, hnext, b, c, hb, henabled, hopened, hc, hgoverned⟩

end ContractMachine.Pool
