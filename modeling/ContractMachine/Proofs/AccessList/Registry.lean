import ContractMachine.Contracts.AccessList
import ContractMachine.Proofs.Calls
import ContractMachine.Proofs.State.Numbering

/-! The registry of an access list: who may do what, and who holds each token. Every token has one
unit, so its register entry names one holder. -/

namespace ContractMachine.AccessList

/-- Whether an account with this flag may take part in a transfer. -/
def Policy.permits : Policy → Bool → Bool
  | whitelist, listed => listed
  | blacklist, listed => !listed

/-- A token that was issued, and the account that holds it. -/
structure Deed where
  holder : Address
  description : String

/-- The token is all issued, in one unit. -/
def Deed.token (deed : Deed) : Token :=
  ⟨1, 1, deed.description, 1⟩

structure Registry where
  maker : Address
  issuer : Address
  listed : Address → Bool
  deeds : List Deed

namespace Registry

def holder? (r : Registry) (i : TokenIndex) : Option Address :=
  r.deeds[i.toNat]?.map Deed.holder

/-- The holder has the one unit, and nobody else has any. -/
def balance (r : Registry) (i : TokenIndex) (account : Address) : Int64 :=
  if r.holder? i = some account then 1 else 0

/-- What can be read of the state is what is in the registry; an account whose flag was never set
is not listed. -/
structure Shows (r : Registry) (v : View) : Prop where
  issuer : v.var issuerVar = some (.address r.issuer)
  maker : v.var makerVar = some (.address r.maker)
  listed : ∀ account,
    (v.entry listedMap (.address account)).getD (.boolean false) = .boolean (r.listed account)
  tokenCount : v.tokenCount.toNat = r.deeds.length
  token : ∀ i, v.token i = r.deeds[i.toNat]?.map Deed.token
  balance : ∀ i account, v.balance i account = r.balance i account

theorem Shows.dense {r : Registry} {v : View} (h : r.Shows v) : v.Dense := by
  intro i
  rw [h.token, UInt32.lt_iff_toNat_lt, h.tokenCount]
  simp

/-- The store is that of a contract with this registry: only balances of issued tokens are kept. -/
structure Records (r : Registry) (s : Store) : Prop extends r.Shows s.view where
  issued : ∀ i account, r.deeds.length ≤ i.toNat → s.balances.get? ⟨i, account⟩ = none

end Registry

/-! ### Changes -/

/-- What a call changes in a registry. -/
inductive Change where
  | issuer (account : Address)
  | flag (account : Address) (listed : Bool)
  | issue (description : String)
  | pass (index : TokenIndex) (sender recipient : Address)

namespace Registry

def changed (r : Registry) : Change → Registry
  | .issuer account => { r with issuer := account }
  | .flag account listed => { r with listed := fun a => if a = account then listed else r.listed a }
  | .issue description => { r with deeds := r.deeds ++ [⟨r.issuer, description⟩] }
  | .pass index _ recipient =>
    { r with deeds := r.deeds.modify index.toNat fun deed => { deed with holder := recipient } }

/-- The index of the next token. -/
def nextToken (r : Registry) : TokenIndex :=
  UInt32.ofNat r.deeds.length

/-- The writes that make a change. A token is defined before its unit is issued; a unit is taken
from the sender before the recipient gets it. -/
def updates (r : Registry) : Change → List Update
  | .issuer account => [.var issuerVar (.address account)]
  | .flag account listed => [.entry listedMap (.address account) (.boolean listed)]
  | .issue description =>
    [.token r.nextToken ⟨1, 1, description, 0⟩, .tokenCount (r.nextToken + 1),
      .token r.nextToken ⟨1, 1, description, 1⟩, .balance r.nextToken r.issuer 1]
  | .pass index sender recipient => [.balance index sender 0, .balance index recipient 1]

/-- A call that the rules let through, and what it changes. -/
inductive Permits (policy : Policy) (r : Registry) : Call → Change → Prop where
  | supersede {context account} (signer : context.signer = some r.maker) :
      r.Permits policy (.invoke supersedeId context [.address account]) (.issuer account)
  | issue {context description} (caller : context.caller = some r.issuer)
      (fits : (Value.shortText description).encodable = true)
      (room : r.deeds.length < 2147483648) :
      r.Permits policy (.invoke issueId context [.shortText description]) (.issue description)
  | updateList {context account listed} (caller : context.caller = some r.issuer) :
      r.Permits policy (.invoke updateListId context [.address account, .boolean listed])
        (.flag account listed)
  | send {context sender recipient index i} (caller : context.caller = some sender)
      (senderMay : policy.permits (r.listed sender) = true)
      (recipientMay : policy.permits (r.listed recipient) = true)
      (token : index.toInt = i.toNat) (held : r.holder? i = some sender) :
      r.Permits policy (.invoke sendId context [.address recipient, .int32 index])
        (.pass i sender recipient)

/-! ### The state after a change -/

variable {r : Registry} {v : View}

theorem toNat_nextToken (h : r.Shows v) : r.nextToken.toNat = r.deeds.length :=
  toNat_ofNat_tokenIndex (h.tokenCount ▸ v.tokenCount.toNat_lt)

theorem Shows.nextToken (h : r.Shows v) : v.tokenCount = r.nextToken :=
  UInt32.toNat_inj.mp (h.tokenCount.trans (toNat_nextToken h).symm)

/-- Nobody has any of a token that is not issued yet. -/
theorem Shows.balance_nextToken (h : r.Shows v) (account : Address) :
    r.balance r.nextToken account = 0 := by
  rw [Registry.balance, holder?, toNat_nextToken h]
  simp

theorem getElem?_deeds_issue (h : r.Shows v) (description : String) (i : TokenIndex) :
    (r.changed (.issue description)).deeds[i.toNat]? =
      if i = r.nextToken then some ⟨r.issuer, description⟩ else r.deeds[i.toNat]? := by
  have hindex : i = r.nextToken ↔ i.toNat = r.deeds.length := by
    rw [← UInt32.toNat_inj, toNat_nextToken h]
  by_cases hi : i.toNat = r.deeds.length
  · rw [if_pos (hindex.mpr hi), changed, hi]
    simp
  · rw [if_neg (mt hindex.mp hi), changed]
    grind

theorem holder?_issue (h : r.Shows v) (description : String) (i : TokenIndex) :
    (r.changed (.issue description)).holder? i =
      if i = r.nextToken then some r.issuer else r.holder? i := by
  rw [holder?, getElem?_deeds_issue h, holder?]
  split <;> rfl

theorem Shows.issue (h : r.Shows v) (description : String)
    (hroom : r.deeds.length + 1 < 4294967296) :
    (r.changed (.issue description)).Shows
      ((r.updates (.issue description)).foldl View.update v) where
  issuer := h.issuer
  maker := h.maker
  listed := h.listed
  tokenCount := by
    change (r.nextToken + 1).toNat = (r.deeds ++ [_]).length
    rw [toNat_succ_tokenIndex (by rwa [toNat_nextToken h]), toNat_nextToken h,
      List.length_append, List.length_singleton]
  token i := by
    rw [getElem?_deeds_issue h]
    by_cases hi : i = r.nextToken
    · simp [updates, View.update, hi, Deed.token]
    · simp [updates, View.update, hi, h.token]
  balance i account := by
    rw [Registry.balance, holder?_issue h]
    by_cases hi : i = r.nextToken
    · subst hi
      by_cases ha : account = r.issuer <;>
        simp [updates, View.update, ha, eq_comm, h.balance, h.balance_nextToken]
    · simp [updates, View.update, hi, h.balance, Registry.balance]

theorem holder?_pass (r : Registry) (index : TokenIndex) (sender recipient : Address)
    (i : TokenIndex) :
    (r.changed (.pass index sender recipient)).holder? i =
      if i = index then (r.holder? i).map fun _ => recipient else r.holder? i := by
  rw [holder?, changed, List.getElem?_modify, holder?]
  by_cases hi : i = index
  · subst hi
    cases r.deeds[i.toNat]? <;> simp
  · have hne : index.toNat ≠ i.toNat := fun he => hi (UInt32.toNat_inj.mp he.symm)
    cases r.deeds[i.toNat]? <;> simp [hi, hne]

theorem Shows.pass (h : r.Shows v) {index : TokenIndex} {sender : Address}
    (hheld : r.holder? index = some sender) (recipient : Address) :
    (r.changed (.pass index sender recipient)).Shows
      ((r.updates (.pass index sender recipient)).foldl View.update v) where
  issuer := h.issuer
  maker := h.maker
  listed := h.listed
  tokenCount := h.tokenCount.trans (List.length_modify ..).symm
  token i := by
    refine (h.token i).trans ?_
    rw [changed, List.getElem?_modify]
    cases r.deeds[i.toNat]? with
    | none => rfl
    | some deed => by_cases hi : index.toNat = i.toNat <;> simp [hi, Deed.token]
  balance i account := by
    rw [Registry.balance, holder?_pass]
    by_cases hi : i = index
    · subst hi
      -- the sender is debited first, so what an account sends to itself it has again
      by_cases hgets : recipient = account <;> by_cases hgives : sender = account <;>
        simp [updates, View.update, hgets, hgives, hheld, h.balance, Registry.balance, eq_comm]
    · simp [updates, View.update, hi, h.balance, Registry.balance]

/-- A change that the rules permit is made by its updates. -/
theorem Shows.changed {policy : Policy} (h : r.Shows v) {c : Call} {change : Change}
    (hpermits : r.Permits policy c change) :
    (r.changed change).Shows ((r.updates change).foldl View.update v) := by
  cases hpermits with
  | @supersede context account signer =>
      exact ⟨rfl, h.maker, h.listed, h.tokenCount, h.token, h.balance⟩
  | @updateList context account listed caller =>
      refine ⟨h.issuer, h.maker, fun a => ?_, h.tokenCount, h.token, h.balance⟩
      by_cases ha : a = account
      · simp [updates, View.update, Registry.changed, ha]
      · simp [updates, View.update, Registry.changed, ha, h.listed]
  | issue caller fits room => exact h.issue _ (by omega)
  | send caller senderMay recipientMay token held => exact h.pass held _

/-! ### The store after a change -/

theorem lt_length_of_holder? {i : TokenIndex} {account : Address}
    (h : r.holder? i = some account) : i.toNat < r.deeds.length := by
  obtain ⟨deed, hdeed, -⟩ := Option.map_eq_some_iff.mp h
  exact (List.getElem?_eq_some_iff.mp hdeed).1

/-- A permitted call issues a token if and only if it is a call of `issue`. -/
theorem length_changed {policy : Policy} {c : Call} {change : Change}
    (h : r.Permits policy c change) :
    (r.changed change).deeds.length = r.deeds.length + if c.Invokes issueId then 1 else 0 := by
  cases h with
  | supersede signer => rfl
  | issue caller fits room => exact List.length_append
  | updateList caller => rfl
  | send caller senderMay recipientMay token held => exact List.length_modify ..

theorem length_le_changed {policy : Policy} {c : Call} {change : Change}
    (h : r.Permits policy c change) : r.deeds.length ≤ (r.changed change).deeds.length :=
  length_changed h ▸ Nat.le_add_right ..

/-- The balances that a change writes are of tokens that are issued then. -/
theorem lt_of_balance_mem_updates {policy : Policy} (h : r.Shows v) {c : Call} {change : Change}
    (hpermits : r.Permits policy c change) {i : TokenIndex} {account : Address} {amount : Int64}
    (hmem : .balance i account amount ∈ r.updates change) :
    i.toNat < (r.changed change).deeds.length := by
  have hle := length_le_changed hpermits
  cases hpermits with
  | supersede signer => simp [updates] at hmem
  | updateList caller => simp [updates] at hmem
  | issue caller fits room =>
      obtain ⟨rfl, -, -⟩ : i = r.nextToken ∧ account = r.issuer ∧ amount = 1 := by
        simpa [updates] using hmem
      simp [toNat_nextToken h, Registry.changed]
  | @send context sender recipient index token caller senderMay recipientMay htoken held =>
      obtain rfl : i = token := by
        simp only [updates, List.mem_cons, List.not_mem_nil, Update.balance.injEq] at hmem
        grind
      exact Nat.lt_of_lt_of_le (lt_length_of_holder? held) hle

theorem Records.commit {policy : Policy} {s : Store} (h : r.Records s) {c : Call} {change : Change}
    (hpermits : r.Permits policy c change) :
    (r.changed change).Records (s.commit (r.updates change)) where
  toShows := by
    have hchanged := h.toShows.changed hpermits
    rw [Store.view_commit hchanged.dense]
    exact hchanged
  issued i account hi := by
    have hnew : ∀ amount, .balance i account amount ∉ r.updates change := fun amount hmem =>
      Nat.not_lt.mpr hi (lt_of_balance_mem_updates h.toShows hpermits hmem)
    rw [Store.get?_balances_commit_of_not_mem hnew]
    exact h.issued i account (Nat.le_trans (length_le_changed hpermits) hi)

end Registry

end ContractMachine.AccessList
