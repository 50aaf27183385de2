import ContractMachine.OrderedMap
import ContractMachine.State.View

/-! Write sets collect the updates of one call; an overlay reads through its write set to the
state beneath. -/

namespace ContractMachine

/-- A key of a state map. -/
structure EntryKey where
  map : SlotIndex
  key : Value
  deriving DecidableEq

instance : SortKey EntryKey where
  key k := Int.ofNat k.map.toNat :: k.key.sortKey
  key_injective {a b} h := by
    obtain ⟨hmap, hkey⟩ := List.cons.inj h
    cases a; cases b
    cases UInt8.toNat_inj.mp (Int.ofNat.inj hmap)
    cases Value.sortKey_injective hkey
    rfl

/-- A holder of a token. -/
structure BalanceKey where
  token : TokenIndex
  holder : Address
  deriving DecidableEq

instance : SortKey BalanceKey where
  key k := Int.ofNat k.token.toNat :: k.holder.sortKey
  key_injective {a b} h := by
    obtain ⟨htoken, hholder⟩ := List.cons.inj h
    cases a; cases b
    cases UInt32.toNat_inj.mp (Int.ofNat.inj htoken)
    cases FixedBytes.sortKey_injective hholder
    rfl

/-- The writes of one call, the last to each place. -/
structure WriteSet where
  vars : OrderedMap SlotIndex Value := ∅
  entries : OrderedMap EntryKey Value := ∅
  tokens : OrderedMap TokenIndex Token := ∅
  balances : OrderedMap BalanceKey Int64 := ∅
  tokenCount : Option TokenIndex := none

namespace WriteSet

/-- Number of places written. -/
def size (w : WriteSet) : Nat :=
  w.vars.size + w.entries.size + w.tokens.size + w.balances.size + w.tokenCount.toList.length

def record (w : WriteSet) : Update → WriteSet
  | .var index value => { w with vars := w.vars.insert index value }
  | .entry index key value => { w with entries := w.entries.insert ⟨index, key⟩ value }
  | .token index token => { w with tokens := w.tokens.insert index token }
  | .tokenCount count => { w with tokenCount := some count }
  | .balance index holder amount => { w with balances := w.balances.insert ⟨index, holder⟩ amount }

end WriteSet

/-- Pending writes above a state. -/
structure Overlay where
  base : View
  writes : WriteSet := {}

namespace Overlay

/-- What is written hides what is beneath. -/
def view (o : Overlay) : View where
  var index := (o.writes.vars.get? index).or (o.base.var index)
  entry index key := (o.writes.entries.get? ⟨index, key⟩).or (o.base.entry index key)
  token index := (o.writes.tokens.get? index).or (o.base.token index)
  tokenCount := o.writes.tokenCount.getD o.base.tokenCount
  balance index holder :=
    (o.writes.balances.get? ⟨index, holder⟩).getD (o.base.balance index holder)

/-- Add updates to the write set, in order. -/
def record (o : Overlay) (updates : List Update) : Overlay :=
  { o with writes := updates.foldl WriteSet.record o.writes }

end Overlay

end ContractMachine
