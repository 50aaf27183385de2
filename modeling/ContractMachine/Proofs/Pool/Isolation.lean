import ContractMachine.Proofs.Pool.Runs
import ContractMachine.Proofs.State.InPlace

/-! Accounts of a pool are kept apart. A function works on the escrows of its caller alone, and a
deposit or a withdrawal moves one number by its amount and leaves everything else as it was. -/

namespace ContractMachine.Pool

/-- The number that is stored at a place; nothing stands for zero. -/
def storedNumber (stored : Option Value) : Int := (stored.bind Value.number?).getD 0

/-- The second state is the first with one escrow moved by a number. -/
def MovesEscrow (v w : View) (t : Asset) (account : Address) (n : Int) : Prop :=
  ∃ moved : Int64, w = v.update (.entry t.escrowMap (.address account) (.amount moved)) ∧
    moved.toInt = storedNumber (v.entry t.escrowMap (.address account)) + n

/-- The second state is the first with the budget of shares moved by a number. -/
def MovesBudget (v w : View) (n : Int) : Prop :=
  ∃ moved : Int64, w = v.update (.var liquidityBudgetVar (.amount moved)) ∧
    moved.toInt = storedNumber (v.var liquidityBudgetVar) + n

/-- A call that leads from the first state to the second touches no account but its own. -/
def Isolates (v w : View) : Call → Prop
  | .invoke _ context _ =>
    ∀ t account, context.caller ≠ some account →
      w.entry (Asset.escrowMap t) (.address account) = v.entry (Asset.escrowMap t) (.address account)
  | .deposit token account amount _ =>
    0 < amount.toInt ∧ ∃ t : Asset, v.var t.tokenVar = some (.tokenId token) ∧
      if t = .liquidity then MovesBudget v w amount.toInt
      else MovesEscrow v w t account amount.toInt
  | .withdraw token account amount _ =>
    0 < amount.toInt ∧ ∃ t : Asset, v.var t.tokenVar = some (.tokenId token) ∧
      MovesEscrow v w t account (-amount.toInt)

/-- The posting is to no escrow but that of the caller. -/
def Posting.IsCallers (context : Context) : Posting → Prop
  | escrow _ account _ => context.caller = some account
  | maker _ | enable | supply _ | reserve _ _ => True

namespace Book

variable {b : Book} {s : Store}

theorem isCallers_of_permits {id : FunctionId} {context : Context} {args : List Value}
    {ps : List Posting} (h : b.Permits (.invoke id context args) ps) :
    ∀ p ∈ ps, p.IsCallers context := by
  cases h with
  | supersede signer => simp [Posting.IsCallers]
  | setSwap h => simp [opening, Posting.IsCallers, h.caller]
  | addLiquidity h => simp [adding, Posting.IsCallers, h.caller]
  | removeLiquidity h => simp [removing, Posting.IsCallers, h.caller]
  | buy h => simp [trading, Posting.IsCallers, h.caller]
  | sell h => simp [trading, Posting.IsCallers, h.caller]

theorem Shows.storedNumber_escrow {v : View} (hb : b.Shows v) (t : Asset) (account : Address) :
    storedNumber (v.entry t.escrowMap (.address account)) = b.escrow t account := by
  have hshown := congrArg Value.number? (hb.escrow t account)
  rw [Value.number?, (hb.bounded.escrow t account).toInt_ofInt] at hshown
  cases hentry : v.entry t.escrowMap (.address account) with
  | none => simpa [hentry, storedNumber, Value.number?] using hshown
  | some stored => simp_all [storedNumber]

theorem Shows.storedNumber_budget {v : View} (hb : b.Shows v) :
    storedNumber (v.var liquidityBudgetVar) = b.reserve .liquidity := by
  obtain ⟨-, -, -, -, -, -, hbudget, -⟩ := hb.reads
  rw [liquidityBudgetVar, hbudget]
  exact (hb.bounded.reserve .liquidity).toInt_ofInt

theorem movesEscrow_settled (hb : b.Shows s.view) (t : Asset) (account : Address) {n : Int}
    (hfits : IsAmount (b.escrow t account + n)) :
    MovesEscrow s.view (settled s [.escrow t account (b.escrow t account + n)]).store.view t account
      n := by
  refine ⟨.ofInt (b.escrow t account + n), ?_, ?_⟩
  · have hcommit := s.commit_concat_entry [] t.escrowMap (.address account)
      (.amount (.ofInt (b.escrow t account + n)))
    exact (congrArg Store.view hcommit).trans (s.view_put_entry ..)
  · rw [hfits.toInt_ofInt, hb.storedNumber_escrow]

theorem movesBudget_settled (hb : b.Shows s.view) {n : Int}
    (hfits : IsAmount (b.reserve .liquidity + n)) :
    MovesBudget s.view
      (settled s [.reserve .liquidity (b.reserve .liquidity + n)]).store.view n := by
  refine ⟨.ofInt (b.reserve .liquidity + n), ?_, ?_⟩
  · have hcommit := s.commit_concat_var [] liquidityBudgetVar
      (.amount (.ofInt (b.reserve .liquidity + n)))
    exact (congrArg Store.view hcommit).trans (s.view_put_var ..)
  · rw [hfits.toInt_ofInt, hb.storedNumber_budget]

theorem isolates_of_permits (hb : b.Shows s.view) {call : Call} {ps : List Posting}
    (h : b.Permits call ps) : Isolates s.view (settled s ps).store.view call := by
  cases call with
  | invoke id context args =>
      intro t account hother
      apply Store.entry_commit_of_not_mem
      intro value hmem
      obtain ⟨posted, n, hkey, hposted⟩ := Posting.mem_of_entry_mem hmem
      obtain rfl := Value.address.inj hkey
      exact hother (isCallers_of_permits h _ hposted)
  | deposit token account amount context =>
      cases h with
      | @deposit _ t _ _ _ role traded positive credit =>
          refine ⟨positive, t, ?_, ?_⟩
          · rw [hb.tokenVar, token_of_role? role]
          · rw [if_neg traded]
            exact movesEscrow_settled hb t account ((hb.bounded.escrow _ _).add positive credit)
      | fund role maker positive fits =>
          refine ⟨positive, .liquidity, ?_, ?_⟩
          · rw [hb.tokenVar, token_of_role? role]
          · exact movesBudget_settled hb ((hb.bounded.reserve _).add positive fits)
  | withdraw token account amount context =>
      cases h with
      | @withdraw _ t _ _ _ role positive covered =>
          refine ⟨positive, t, ?_, ?_⟩
          · rw [hb.tokenVar, token_of_role? role]
          · exact movesEscrow_settled hb t account ((hb.bounded.escrow _ _).sub positive covered)

end Book

/-- From every state that a deployed pool reaches, every call that goes through touches no account
but its own: a function that of its caller, a deposit or a withdrawal that which it names. -/
theorem accounts_isolated {context : Context} {args : List Value} {d : Deployment Store}
    (h : Deployment.deploy valid ({} : Store) context args = .ok d) (calls : List Call)
    {call : Call} {next : Deployment Store} (hcall : (d.after calls).perform call = .ok next) :
    Isolates (d.after calls).store.view next.store.view call := by
  obtain ⟨b, s, hafter, hrecords, -⟩ := records_after (I := fun _ _ => True)
    (fun _ _ _ => trivial) (fun _ _ _ _ _ _ _ _ => trivial) h calls
  rw [hafter] at hcall ⊢
  obtain ⟨ps, hpermits, rfl⟩ := (perform_eq_ok_iff hrecords.toShows).mp hcall
  exact Book.isolates_of_permits hrecords.toShows hpermits

/-- The theorem at a pool that was opened and then trades. -/
theorem sample_trade_isolated :
    ∃ d next, Sample.deployed = .ok d ∧ (d.after Sample.opening).perform Sample.trade = .ok next ∧
      Isolates (d.after Sample.opening).store.view next.store.view Sample.trade := by
  obtain ⟨d, hd, -, next, hnext⟩ := Sample.exists_deployed
  exact ⟨d, next, hd, hnext, accounts_isolated hd Sample.opening hnext⟩

end ContractMachine.Pool
