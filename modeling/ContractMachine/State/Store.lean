import ContractMachine.State.WriteSet

/-! Stores keep the committed state of a contract. -/

namespace ContractMachine

/-- A kind of store: it can be read, and it takes a whole write set at once. -/
class Storage (σ : Type) where
  view : σ → View
  apply : σ → WriteSet → σ

/-- A store in memory. Tokens are numbered by their position. -/
structure Store where
  vars : OrderedMap SlotIndex Value := ∅
  entries : OrderedMap EntryKey Value := ∅
  tokens : List Token := []
  balances : OrderedMap BalanceKey Int64 := ∅

namespace Store

/-- An unset balance is zero. -/
def view (s : Store) : View where
  var index := s.vars.get? index
  entry index key := s.entries.get? ⟨index, key⟩
  token index := s.tokens[index.toNat]?
  tokenCount := UInt32.ofNat s.tokens.length
  balance index holder := (s.balances.get? ⟨index, holder⟩).getD 0

/-- Replace a token, or add it at the end if there is none under its index. -/
def putToken (tokens : List Token) (index : TokenIndex) (token : Token) : List Token :=
  if index.toNat < tokens.length then tokens.set index.toNat token else tokens ++ [token]

/-- Commit a write set. The number of tokens follows from the tokens themselves. -/
def apply (s : Store) (w : WriteSet) : Store where
  vars := s.vars.merge w.vars
  entries := s.entries.merge w.entries
  tokens :=
    w.tokens.toList.foldl (fun tokens (index, token) => putToken tokens index token) s.tokens
  balances := s.balances.merge w.balances

instance : Storage Store := ⟨view, apply⟩

end Store

/-- A store that reports a fixed number of tokens, whatever it holds. -/
structure PinnedStore where
  store : Store
  tokenCount : TokenIndex

instance : Storage PinnedStore where
  view s := { s.store.view with tokenCount := s.tokenCount }
  apply s w := { s with store := s.store.apply w }

end ContractMachine
