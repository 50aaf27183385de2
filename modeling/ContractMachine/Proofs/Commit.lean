import ContractMachine.Proofs.OrderedMap
import ContractMachine.Arithmetic.Basic
import ContractMachine.State.Store

/-! Pending updates are read as if they were made, and committing them makes them. -/

namespace ContractMachine

/-- Whatever can be read of the slots and tokens is what an update with the property writes. -/
structure View.Every (P : Update → Prop) (view : View) : Prop where
  var : ∀ index v, view.var index = some v → P (.var index v)
  entry : ∀ index k v, view.entry index k = some v → P (.entry index k v)
  token : ∀ index t, view.token index = some t → P (.token index t)

namespace View.Every

variable {P : Update → Prop} {view : View}

theorem update (h : view.Every P) {u : Update} (hu : P u) : (view.update u).Every P := by
  cases u with
  | var index v =>
      refine ⟨fun i w hw => ?_, h.entry, h.token⟩
      by_cases hi : i = index
      · subst hi
        obtain rfl : v = w := by simpa [View.update] using hw
        exact hu
      · exact h.var i w (by simpa [View.update, hi] using hw)
  | entry index k v =>
      refine ⟨h.var, fun i j w hw => ?_, h.token⟩
      by_cases hi : i = index ∧ j = k
      · obtain ⟨rfl, rfl⟩ := hi
        obtain rfl : v = w := by simpa [View.update] using hw
        exact hu
      · exact h.entry i j w (by simpa [View.update, hi] using hw)
  | token index t =>
      refine ⟨h.var, h.entry, fun i w hw => ?_⟩
      by_cases hi : i = index
      · subst hi
        obtain rfl : t = w := by simpa [View.update] using hw
        exact hu
      · exact h.token i w (by simpa [View.update, hi] using hw)
  | tokenCount _ => exact ⟨h.var, h.entry, h.token⟩
  | balance _ _ _ => exact ⟨h.var, h.entry, h.token⟩

theorem foldl_update {us : List Update} (h : view.Every P) (hus : ∀ u ∈ us, P u) :
    (us.foldl View.update view).Every P := by
  induction us generalizing view with
  | nil => exact h
  | cons u us ih =>
      have hfirst := h.update (hus u List.mem_cons_self)
      exact ih hfirst fun u' hu' => hus u' (List.mem_cons_of_mem u hu')

end View.Every

/-- An entry that no update is about stays as it is. -/
theorem View.entry_foldl_update {view : View} {us : List Update} {index : SlotIndex} {key : Value}
    (h : ∀ value, .entry index key value ∉ us) :
    (us.foldl View.update view).entry index key = view.entry index key := by
  induction us generalizing view with
  | nil => rfl
  | cons u us ih =>
      have hfirst : (view.update u).entry index key = view.entry index key := by
        cases u with
        | entry i k v =>
            refine if_neg ?_
            rintro ⟨rfl, rfl⟩
            exact h v List.mem_cons_self
        | _ => rfl
      rw [List.foldl_cons, ih fun value hmem => h value (List.mem_cons_of_mem u hmem), hfirst]

/-- A balance that no update is about is not among the pending ones. -/
theorem WriteSet.get?_balances_foldl_record {w : WriteSet} {us : List Update} {index : TokenIndex}
    {holder : Address} (h : ∀ amount, .balance index holder amount ∉ us) :
    (us.foldl record w).balances.get? ⟨index, holder⟩ = w.balances.get? ⟨index, holder⟩ := by
  induction us generalizing w with
  | nil => rfl
  | cons u us ih =>
      rw [List.foldl_cons, ih fun amount hmem => h amount (List.mem_cons_of_mem u hmem)]
      cases u with
      | balance i a n =>
          rw [record, OrderedMap.get?_insert, if_neg]
          rintro ⟨⟩
          exact h n List.mem_cons_self
      | _ => rfl

namespace Overlay

/-- Nothing is pending above a fresh base. -/
@[simp] theorem view_mk_empty (base : View) : (Overlay.mk base {}).view = base := rfl

theorem record_record (o : Overlay) (us vs : List Update) :
    (o.record us).record vs = o.record (us ++ vs) := by
  simp [record]

theorem view_writes_record (base : View) (w : WriteSet) (u : Update) :
    (Overlay.mk base (w.record u)).view = (Overlay.mk base w).view.update u := by
  cases u with
  | var index value =>
      simp only [view, WriteSet.record, View.update, OrderedMap.get?_insert, View.mk.injEq,
        and_true]
      funext i
      split <;> simp
  | entry index key value =>
      simp only [view, WriteSet.record, View.update, OrderedMap.get?_insert, EntryKey.mk.injEq,
        View.mk.injEq, and_true, true_and]
      funext i k
      split <;> simp
  | token index token =>
      simp only [view, WriteSet.record, View.update, OrderedMap.get?_insert, View.mk.injEq,
        and_true, true_and]
      funext i
      split <;> simp
  | tokenCount count => rfl
  | balance index holder amount =>
      simp only [view, WriteSet.record, View.update, OrderedMap.get?_insert, BalanceKey.mk.injEq,
        View.mk.injEq, true_and]
      funext i a
      split <;> simp

/-- The view through recorded updates is the view with the updates made. -/
theorem view_record (o : Overlay) (us : List Update) :
    (o.record us).view = us.foldl View.update o.view := by
  obtain ⟨base, w⟩ := o
  induction us generalizing w with
  | nil => rfl
  | cons u us ih =>
      have hrest := ih (w.record u)
      rw [view_writes_record] at hrest
      exact hrest

end Overlay

namespace Store

/-- The store after updates are recorded above it and committed. -/
def commit (s : Store) (us : List Update) : Store :=
  s.apply (us.foldl WriteSet.record {})

def setVar (s : Store) (index : SlotIndex) (value : Value) : Store :=
  { s with vars := s.vars.insert index value }

def setEntry (s : Store) (index : SlotIndex) (key value : Value) : Store :=
  { s with entries := s.entries.insert ⟨index, key⟩ value }

theorem commit_concat_var (s : Store) (us : List Update) (index : SlotIndex) (value : Value) :
    s.commit (us ++ [.var index value]) = (s.commit us).setVar index value := by
  simp [commit, apply, setVar, WriteSet.record, OrderedMap.merge_insert]

theorem commit_concat_entry (s : Store) (us : List Update) (index : SlotIndex)
    (key value : Value) :
    s.commit (us ++ [.entry index key value]) = (s.commit us).setEntry index key value := by
  simp [commit, apply, setEntry, WriteSet.record, OrderedMap.merge_insert]

/-! ### Reading what was set -/

theorem var_commit (s : Store) (us : List Update) :
    (s.commit us).view.var = (us.foldl View.update s.view).var := by
  have hview := Overlay.view_record { base := s.view } us
  rw [Overlay.view_mk_empty] at hview
  rw [← hview]
  funext i
  exact OrderedMap.get?_merge ..

theorem entry_commit (s : Store) (us : List Update) :
    (s.commit us).view.entry = (us.foldl View.update s.view).entry := by
  have hview := Overlay.view_record { base := s.view } us
  rw [Overlay.view_mk_empty] at hview
  rw [← hview]
  funext i k
  exact OrderedMap.get?_merge ..

theorem entry_commit_of_not_mem {s : Store} {us : List Update} {index : SlotIndex} {key : Value}
    (h : ∀ value, .entry index key value ∉ us) :
    (s.commit us).view.entry index key = s.view.entry index key := by
  rw [entry_commit]
  exact View.entry_foldl_update h

theorem get?_balances_commit_of_not_mem {s : Store} {us : List Update} {index : TokenIndex}
    {holder : Address} (h : ∀ amount, .balance index holder amount ∉ us) :
    (s.commit us).balances.get? ⟨index, holder⟩ = s.balances.get? ⟨index, holder⟩ := by
  have hpending : (us.foldl WriteSet.record {}).balances.get? ⟨index, holder⟩ = none :=
    WriteSet.get?_balances_foldl_record h
  rw [commit, apply, OrderedMap.get?_merge, hpending, Option.none_or]

@[simp] theorem var_setVar (s : Store) (index i : SlotIndex) (value : Value) :
    (s.setVar index value).view.var i = if i = index then some value else s.view.var i :=
  OrderedMap.get?_insert ..

@[simp] theorem entry_setVar (s : Store) (index : SlotIndex) (value : Value) :
    (s.setVar index value).view.entry = s.view.entry := rfl

@[simp] theorem var_setEntry (s : Store) (index : SlotIndex) (key value : Value) :
    (s.setEntry index key value).view.var = s.view.var := rfl

@[simp] theorem entry_setEntry (s : Store) (index i : SlotIndex) (key k value : Value) :
    (s.setEntry index key value).view.entry i k =
      if i = index ∧ k = key then some value else s.view.entry i k := by
  simp [view, setEntry, OrderedMap.get?_insert]

/-! ### Totals -/

/-- The sum of the numbers in a map. -/
def total (s : Store) (map : SlotIndex) : Int :=
  s.entries.sum fun k v => if k.map = map then v.number?.getD 0 else 0

@[simp] theorem total_setVar (s : Store) (index : SlotIndex) (value : Value) (map : SlotIndex) :
    (s.setVar index value).total map = s.total map := rfl

theorem total_setEntry (s : Store) (index : SlotIndex) (key value : Value) (map : SlotIndex) :
    (s.setEntry index key value).total map =
      if index = map then
        s.total map + value.number?.getD 0 - ((s.view.entry index key).bind Value.number?).getD 0
      else s.total map := by
  rw [total, setEntry, OrderedMap.sum_insert, ← total]
  by_cases h : index = map
  · simp only [h, view, if_true]
    cases s.entries.get? ⟨map, key⟩ <;> simp
  · cases hentry : s.entries.get? ⟨index, key⟩ <;> simp [h]

end Store

end ContractMachine
