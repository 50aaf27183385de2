import ContractMachine.Proofs.Pool.Isolation
import ContractMachine.Proofs.Pool.ShareValue
import ContractMachine.Proofs.State.InPlace

/-! Calls and their terms. Terms say in integers which account a call goes through for, and
entries what it then changes; everything else that can be read of the state stays as it is. -/

namespace ContractMachine.Pool

/-- Committing entries writes their places and no others. -/
theorem view_commit_postings (s : Store) (ps : List Posting) :
    (s.commit (ps.map Posting.update)).view =
      (ps.map Posting.update).foldl View.update s.view := by
  induction ps using List.reverseRecOn with
  | nil => rfl
  | append_singleton ps p ih =>
      rw [List.map_append, List.foldl_append, ← ih]
      cases p with
      | escrow t account n =>
          rw [List.map_singleton, Posting.update, Store.commit_concat_entry]
          exact Store.view_put_entry _ _ _ _
      | _ =>
          rw [List.map_singleton, Posting.update, Store.commit_concat_var]
          exact Store.view_put_var _ _ _

namespace Book

/-! ### Which rule a call is under -/

section Inversion

attribute [local simp] supersedeId setSwapId addLiquidityId removeLiquidityId swapForExactId
  swapExactId

variable {b : Book} {context : Context} {minA minB deadline : Int64} {ps : List Posting}

theorem permits_setSwap_iff {amountA amountB : Int64} :
    b.Permits (.invoke setSwapId context [.amount amountA, .amount amountB]) ps ↔
      ∃ shares, b.Opens context amountA amountB shares ∧
        ps = b.opening amountA.toInt amountB.toInt shares.toInt := by
  constructor
  · generalize hcall : Call.invoke setSwapId context _ = call
    intro h
    cases h with
    | setSwap h =>
        obtain ⟨rfl, rfl, rfl⟩ := by simpa using hcall
        exact ⟨_, h, rfl⟩
    | _ => simp at hcall
  · rintro ⟨shares, h, rfl⟩
    exact .setSwap h

theorem permits_addLiquidity_iff {offeredA offeredB : Int64} :
    b.Permits
        (.invoke addLiquidityId context
          [.amount offeredA, .amount offeredB, .amount minA, .amount minB, .timestamp deadline])
        ps ↔
      ∃ account amountA amountB shares,
        b.Adds context offeredA offeredB minA minB deadline account amountA amountB shares ∧
          ps = b.adding account amountA.toInt amountB.toInt shares.toInt := by
  constructor
  · generalize hcall : Call.invoke addLiquidityId context _ = call
    intro h
    cases h with
    | addLiquidity h =>
        obtain ⟨rfl, rfl, rfl, rfl, rfl, rfl⟩ := by simpa using hcall
        exact ⟨_, _, _, _, h, rfl⟩
    | _ => simp at hcall
  · rintro ⟨account, amountA, amountB, shares, h, rfl⟩
    exact .addLiquidity h

theorem permits_removeLiquidity_iff {shares : Int64} :
    b.Permits
        (.invoke removeLiquidityId context
          [.amount shares, .amount minA, .amount minB, .timestamp deadline]) ps ↔
      ∃ account amountA amountB,
        b.Removes context shares minA minB deadline account amountA amountB ∧
          ps = b.removing account amountA.toInt amountB.toInt shares.toInt := by
  constructor
  · generalize hcall : Call.invoke removeLiquidityId context _ = call
    intro h
    cases h with
    | removeLiquidity h =>
        obtain ⟨rfl, rfl, rfl, rfl, rfl⟩ := by simpa using hcall
        exact ⟨_, _, _, h, rfl⟩
    | _ => simp at hcall
  · rintro ⟨account, amountA, amountB, h, rfl⟩
    exact .removeLiquidity h

theorem permits_swapForExact_iff {amountOut maxIn : Int64} :
    b.Permits
        (.invoke swapForExactId context [.amount amountOut, .amount maxIn, .timestamp deadline])
        ps ↔
      ∃ account amountIn, b.Buys context amountOut maxIn deadline account amountIn ∧
        ps = b.trading account amountIn.toInt amountOut.toInt := by
  constructor
  · generalize hcall : Call.invoke swapForExactId context _ = call
    intro h
    cases h with
    | buy h =>
        obtain ⟨rfl, rfl, rfl, rfl⟩ := by simpa using hcall
        exact ⟨_, _, h, rfl⟩
    | _ => simp at hcall
  · rintro ⟨account, amountIn, h, rfl⟩
    exact .buy h

theorem permits_swapExact_iff {amountIn minOut : Int64} :
    b.Permits
        (.invoke swapExactId context [.amount amountIn, .amount minOut, .timestamp deadline])
        ps ↔
      ∃ account amountOut, b.Sells context amountIn minOut deadline account amountOut ∧
        ps = b.trading account amountIn.toInt amountOut.toInt := by
  constructor
  · generalize hcall : Call.invoke swapExactId context _ = call
    intro h
    cases h with
    | sell h =>
        obtain ⟨rfl, rfl, rfl, rfl⟩ := by simpa using hcall
        exact ⟨_, _, h, rfl⟩
    | _ => simp at hcall
  · rintro ⟨account, amountOut, h, rfl⟩
    exact .sell h

end Inversion

/-! ### Terms -/

/-- The second deployment is the first after the entries are posted to its book, and what can be
read of it has changed in the places of the entries only. -/
structure Settles (b : Book) (d next : Deployment Store) (ps : List Posting) : Prop where
  contract : next.contract = d.contract
  records : (b.posted ps).Records next.store
  view : next.store.view = (ps.map Posting.update).foldl View.update d.store.view

/-- The call goes through if and only if there is an account on these terms, and then it makes
the entries for such an account. -/
structure Follows (b : Book) (d : Deployment Store) (call : Call) (terms : Address → Prop)
    (entries : Address → List Posting) : Prop where
  succeeds_iff : (∃ next, d.perform call = .ok next) ↔ ∃ account, terms account
  settles : ∀ next, d.perform call = .ok next →
    ∃ account, terms account ∧ b.Settles d next (entries account)

variable {b : Book} {s : Store} {call : Call}

theorem Records.settles (h : b.Records s) {ps : List Posting} (hpermits : b.Permits call ps) :
    b.Settles ⟨valid, s⟩ (settled s ps) ps where
  contract := rfl
  records := h.posted hpermits
  view := view_commit_postings s ps

/-- Terms that say what the rules say are the terms of the call. -/
theorem Records.follows (h : b.Records s) {terms : Address → Prop}
    {entries : Address → List Posting}
    (hpermits : ∀ ps, b.Permits call ps ↔ ∃ account, terms account ∧ ps = entries account) :
    b.Follows ⟨valid, s⟩ call terms entries where
  succeeds_iff := by
    constructor
    · rintro ⟨next, hnext⟩
      obtain ⟨ps, hps, -⟩ := (perform_eq_ok_iff h.toShows).mp hnext
      obtain ⟨account, hterms, -⟩ := (hpermits ps).mp hps
      exact ⟨account, hterms⟩
    · rintro ⟨account, hterms⟩
      exact ⟨_, perform_of_permits h.toShows ((hpermits _).mpr ⟨account, hterms, rfl⟩)⟩
  settles next hnext := by
    obtain ⟨ps, hps, rfl⟩ := (perform_eq_ok_iff h.toShows).mp hnext
    obtain ⟨account, hterms, rfl⟩ := (hpermits ps).mp hps
    exact ⟨account, hterms, h.settles hps⟩

end Book

/-- Every state that a deployed pool reaches has a book with backed shares. -/
theorem exists_backed {context : Context} {args : List Value} {d : Deployment Store}
    (h : Deployment.deploy valid ({} : Store) context args = .ok d) (calls : List Call) :
    ∃ (b : Book) (s : Store), d.after calls = ⟨valid, s⟩ ∧ b.Records s ∧ b.Backed :=
  records_after (I := fun b _ => b.Backed) Book.backed_initial
    (fun _ _ _ _ _ hb _ hpermits => hb.posted hpermits) h calls

/-! ### What an account has -/

/-- What an account has of a token in escrow. -/
def escrowOf (d : Deployment Store) (t : Asset) (account : Address) : Int :=
  storedNumber (d.store.view.entry t.escrowMap (.address account))

theorem Book.Records.escrowOf_eq {b : Book} {d : Deployment Store} (h : b.Records d.store)
    (t : Asset) (account : Address) : escrowOf d t account = b.escrow t account :=
  h.toShows.storedNumber_escrow t account

/-! ### The small pool -/

namespace Sample

/-- Whether a call goes through after some others, and to a state with the property. -/
def leadsTo (calls : List Call) (call : Call)
    (property : Deployment Store → Deployment Store → Bool) : Bool :=
  match deployed with
  | .ok d =>
    match (d.after calls).perform call with
    | .ok next => property d next
    | .error _ => false
  | .error _ => false

theorem exists_of_leadsTo {calls : List Call} {call : Call}
    {property : Deployment Store → Deployment Store → Bool}
    (h : leadsTo calls call property = true) :
    ∃ d next, deployed = .ok d ∧ (d.after calls).perform call = .ok next ∧
      property d next = true := by
  rw [leadsTo] at h
  cases hd : deployed with
  | error e => simp [hd] at h
  | ok d =>
      cases hnext : (d.after calls).perform call with
      | error e => simp [hd, hnext] at h
      | ok next => exact ⟨d, next, rfl, hnext, by simpa [hd, hnext] using h⟩

/-- A call that the open pool lets through, by evaluation. -/
theorem exists_next (call : Call) (h : leadsTo opening call (fun _ _ => true) = true) :
    ∃ d next, deployed = .ok d ∧ (d.after opening).perform call = .ok next := by
  obtain ⟨d, next, hd, hnext, -⟩ := exists_of_leadsTo h
  exact ⟨d, next, hd, hnext⟩

theorem opening_numbers {d : Deployment Store} (hd : deployed = .ok d) {b : Book}
    (hb : b.Records (d.after opening).store) :
    b.reserve .a = 2000 ∧ b.reserve .b = 1000 ∧ b.supply = 1414 := by
  have hcheck : (match deployed with
      | .ok d =>
        let v := (d.after opening).store.view
        decide (v.var 6 = some (.amount 2000) ∧ v.var 7 = some (.amount 1000) ∧
          v.var 8 = some (.amount 1414))
      | .error _ => false) = true := by decide +kernel
  simp only [hd, decide_eq_true_eq] at hcheck
  obtain ⟨hA, hB, hsupply⟩ := hcheck
  obtain ⟨-, -, -, hreadA, hreadB, hreadSupply, -⟩ := hb.toShows.reads
  have hvalue : ∀ {o : Option Value} {n : Int} {x : Int64}, IsAmount n →
      o = some (.amount (.ofInt n)) → o = some (.amount x) → n = x.toInt := by
    intro o n x hn h h'
    rw [h] at h'
    obtain rfl := Value.amount.inj (Option.some.inj h')
    exact hn.toInt_ofInt.symm
  exact ⟨hvalue (hb.bounded.reserve .a) hreadA hA, hvalue (hb.bounded.reserve .b) hreadB hB,
    hvalue hb.bounded.supply hreadSupply hsupply⟩

end Sample

end ContractMachine.Pool
