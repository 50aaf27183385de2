import ContractMachine.Proofs.Commit
import ContractMachine.Proofs.Effects

/-! Operations on a state. Each of them, and so each instruction, makes one of a few kinds of
writes; what those kinds keep is kept by every sequence of operations. -/

namespace ContractMachine

/-! ### Kinds of writes -/

namespace View

/-- The updates that one operation of the ledger can make on a state that reads as `v`. If it
defines a token, then with one of these descriptions. -/
inductive LedgerWrites (v : View) (descriptions : List String) : List Update → Prop where
  | nothing : LedgerWrites v descriptions []
  | newToken {maxSupply unit : Int64} {description : String}
      (hdescription : description ∈ descriptions) (hmax : 0 < maxSupply.toInt)
      (hunit : 0 < unit.toInt) (hcount : v.tokenCount.toNat + 1 < 4294967296) :
      LedgerWrites v descriptions [.token v.tokenCount ⟨maxSupply, unit, description, 0⟩,
        .tokenCount (v.tokenCount + 1)]
  | deposit {i : TokenIndex} {token : Token} {holder : Address} {amount balance : Int64}
      (htoken : v.token i = some token) (hamount : 0 < amount.toInt)
      (hsupply : token.issued.toInt + amount.toInt ≤ token.maxSupply.toInt)
      (hbalance : balance.toInt = (v.balance i holder).toInt + amount.toInt) :
      LedgerWrites v descriptions
        [.token i { token with issued := token.issued + amount }, .balance i holder balance]
  | transfer {i : TokenIndex} {token : Token} {source target : Address} {amount credited : Int64}
      (htoken : v.token i = some token) (hamount : 0 < amount.toInt)
      (hheld : amount.toInt ≤ (v.balance i source).toInt)
      (hcredited : credited.toInt =
        ((v.update (.balance i source (v.balance i source - amount))).balance i target).toInt +
          amount.toInt) :
      LedgerWrites v descriptions
        [.balance i source (v.balance i source - amount), .balance i target credited]
  /-- The first half of a transfer whose target cannot take the amount. -/
  | debit {i : TokenIndex} {token : Token} {source : Address} (target : Address) {amount : Int64}
      (htoken : v.token i = some token) (hamount : 0 < amount.toInt)
      (hheld : amount.toInt ≤ (v.balance i source).toInt)
      (hfull : int64? (((v.update (.balance i source (v.balance i source - amount))).balance i
        target).toInt + amount.toInt) = none) :
      LedgerWrites v descriptions [.balance i source (v.balance i source - amount)]

/-- The updates that one operation can make on a state that reads as `v`. -/
inductive Writes (v : View) : List Update → Prop where
  | nothing : Writes v []
  | var (index : SlotIndex) (value : Value) : Writes v [.var index value]
  | entry (index : SlotIndex) (key value : Value) : Writes v [.entry index key value]
  | ledger {descriptions : List String} {us : List Update} (h : v.LedgerWrites descriptions us) :
      Writes v us

theorem knownToken_eq_ok_iff {v : View} {index : Int} {i : TokenIndex} {token : Token} :
    v.knownToken index = .ok (i, token) ↔ tokenIndex? index = some i ∧ v.token i = some token := by
  fun_cases knownToken v index with
  | case1 hindex => simp [hindex]
  | case2 j hindex htoken =>
      have hnone : j = i → v.token i ≠ some token := by
        rintro rfl
        simp [htoken]
      simpa [hindex] using hnone
  | case3 j hindex found htoken =>
      have hsame : j = i → (v.token i = some token ↔ found = token) := by
        rintro rfl
        simp [htoken]
      simp only [Except.ok.injEq, Prod.mk.injEq, hindex, Option.some.injEq]
      exact and_congr_right fun hj => (hsame hj).symm

theorem ledgerWrites_newToken (v : View) (maxSupply unit : Int64) (description : String) :
    v.LedgerWrites [description] (v.newToken maxSupply unit description).updates := by
  fun_cases newToken v maxSupply unit description with
  | case1 hinvalid => exact .nothing
  | case2 hvalid index hcount =>
      obtain ⟨hmax, hunit⟩ : 0 < maxSupply.toInt ∧ 0 < unit.toInt := by omega
      exact .newToken (List.mem_singleton_self description) hmax hunit hcount
  | case3 hvalid index hfull => exact .nothing

theorem ledgerWrites_deposit (v : View) (index : Int) (holder : Address) (amount : Int64) :
    v.LedgerWrites [] (v.deposit index holder amount).updates := by
  fun_cases deposit v index holder amount with
  | case3 hamount i token hknown hsupply balance hbalance =>
      obtain ⟨-, htoken⟩ := knownToken_eq_ok_iff.mp hknown
      exact .deposit htoken (by omega) hsupply (int64?_eq_some_iff.mp hbalance)
  | _ => exact .nothing

theorem ledgerWrites_transfer (v : View) (index : Int) (source target : Address) (amount : Int64) :
    v.LedgerWrites [] (v.transfer index source target amount).updates := by
  fun_cases transfer v index source target amount with
  | case4 hamount i token hknown held hheld debit credited hcredited =>
      obtain ⟨-, htoken⟩ := knownToken_eq_ok_iff.mp hknown
      exact .transfer htoken (by omega) (Int.not_lt.mp hheld) (int64?_eq_some_iff.mp hcredited)
  | case5 hamount i token hknown held hheld debit hfull =>
      obtain ⟨-, htoken⟩ := knownToken_eq_ok_iff.mp hknown
      exact .debit target htoken (by omega) (Int.not_lt.mp hheld) hfull
  | _ => exact .nothing

end View

/-- An instruction makes one of the known kinds of writes. -/
theorem Instruction.Yields.writes {env : Env} {view : View} {r : RegisterFile} {i : Instruction}
    {us : List Update} (h : i.Yields env view r (.updates us)) : view.Writes us := by
  cases h with
  | assertParty => exact .nothing
  | assertTrue => exact .nothing
  | assertPermitted => exact .nothing
  | assertEqual => exact .nothing
  | assertNotExpired => exact .nothing
  | setVar => exact .var _ _
  | moveVar => exact .var _ _
  | setEntry => exact .entry _ _ _
  | moveEntry => exact .entry _ _ _
  | newToken => exact .ledger (view.ledgerWrites_newToken _ _ _)
  | deposit => exact .ledger (view.ledgerWrites_deposit _ _ _)
  | transfer => exact .ledger (view.ledgerWrites_transfer _ _ _ _)

/-! ### Reads and writes with their answers -/

/-- A read or a write of a state. -/
inductive Operation where
  | var (index : SlotIndex)
  | entry (index : SlotIndex) (key : Value)
  | token (index : TokenIndex)
  | tokenCount
  | balance (index : TokenIndex) (holder : Address)
  | balanceOf (index : Int) (holder : Address)
  | setVar (index : SlotIndex) (value : Value)
  | setEntry (index : SlotIndex) (key value : Value)
  | newToken (maxSupply unit : Int64) (description : String)
  | deposit (index : Int) (holder : Address) (amount : Int64)
  | transfer (index : Int) (source target : Address) (amount : Int64)

inductive Answer where
  | value (v : Option Value)
  | token (t : Option Token)
  | count (n : TokenIndex)
  /-- The index of a new token. -/
  | index (i : TokenIndex)
  | amount (n : Int64)
  | done
  | refused (e : TokenError)
  deriving DecidableEq

def Answer.ofExcept {α : Type} (item : α → Answer) : Except TokenError α → Answer
  | .ok a => item a
  | .error e => refused e

def LedgerOutcome.respond {α : Type} (o : LedgerOutcome α) (item : α → Answer) :
    Answer × List Update :=
  (.ofExcept item o.answer, o.updates)

/-- The answer of an operation and the updates that it makes. -/
def View.respond (v : View) : Operation → Answer × List Update
  | .var index => (.value (v.var index), [])
  | .entry index key => (.value (v.entry index key), [])
  | .token index => (.token (v.token index), [])
  | .tokenCount => (.count v.tokenCount, [])
  | .balance index holder => (.amount (v.balance index holder), [])
  | .balanceOf index holder => (.ofExcept .amount (v.balanceOf index holder), [])
  | .setVar index value => (.done, [.var index value])
  | .setEntry index key value => (.done, [.entry index key value])
  | .newToken maxSupply unit description =>
    (v.newToken maxSupply unit description).respond .index
  | .deposit index holder amount => (v.deposit index holder amount).respond fun _ => .done
  | .transfer index source target amount =>
    (v.transfer index source target amount).respond fun _ => .done

theorem View.writes_respond (v : View) (op : Operation) : v.Writes (v.respond op).2 := by
  cases op with
  | setVar index value => exact .var index value
  | setEntry index key value => exact .entry index key value
  | newToken maxSupply unit description =>
      exact .ledger (v.ledgerWrites_newToken maxSupply unit description)
  | deposit index holder amount => exact .ledger (v.ledgerWrites_deposit index holder amount)
  | transfer index source target amount =>
      exact .ledger (v.ledgerWrites_transfer index source target amount)
  | _ => exact .nothing

/-- Perform operations in order; the answers come in the same order. -/
def performAll {σ : Type} (perform : σ → Operation → Answer × σ) :
    List Operation → σ → List Answer × σ
  | [], s => ([], s)
  | op :: rest, s =>
    let (answer, next) := perform s op
    let (answers, last) := performAll perform rest next
    (answer :: answers, last)

namespace Overlay

/-- Answer an operation from what the overlay shows, and record what it writes. -/
def perform (o : Overlay) (op : Operation) : Answer × Overlay :=
  ((o.view.respond op).1, o.record (o.view.respond op).2)

theorem view_perform (o : Overlay) (op : Operation) :
    (o.perform op).2.view = (o.view.respond op).2.foldl View.update o.view :=
  o.view_record _

theorem base_performAll (ops : List Operation) (o : Overlay) :
    (performAll perform ops o).2.base = o.base := by
  induction ops generalizing o with
  | nil => rfl
  | cons op rest ih => exact ih (o.perform op).2

/-- What every kind of writes keeps holds of the state that an overlay shows, however it is used. -/
theorem view_performAll {P : View → Prop}
    (hwrites : ∀ v us, P v → v.Writes us → P (us.foldl View.update v)) (ops : List Operation)
    {o : Overlay} (h : P o.view) : P (performAll perform ops o).2.view := by
  induction ops generalizing o with
  | nil => exact h
  | cons op rest ih =>
      apply ih (o := (o.perform op).2)
      rw [view_perform]
      exact hwrites o.view _ h (o.view.writes_respond op)

end Overlay

end ContractMachine
