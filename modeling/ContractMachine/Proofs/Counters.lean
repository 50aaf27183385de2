import ContractMachine.Proofs.Acceptance
import ContractMachine.Proofs.Calls
import ContractMachine.Proofs.State.Operations
import Mathlib.Algebra.Ring.Int.Defs

/-! Counters: places of the state that the code of a contract moves and never sets. A counter holds
nothing or a number that is not negative, and a call changes it by what its body adds to it less
what its body takes from it. -/

namespace ContractMachine

/-! ### Places of the state -/

/-- A place that holds one value: a state variable or an entry of a state map. -/
inductive Place where
  | var (index : SlotIndex)
  | entry (map : SlotIndex) (key : Value)
  deriving DecidableEq

/-- Whether an instruction may set the place. Of a map this is any entry, because the key is known
only when the instruction runs. -/
def Place.isSetBy : Place → Instruction → Bool
  | var index, .setVar target _ => target = index
  | entry map _, .setEntry target _ _ => target = map
  | _, _ => false

/-- The place that an update writes, unless it is one of the token ledger. -/
def Update.place? : Update → Option Place
  | .var index _ => some (.var index)
  | .entry map key _ => some (.entry map key)
  | .token _ _ | .tokenCount _ | .balance _ _ _ => none

namespace View

variable {v w u : View} {p : Place}

def stored (v : View) : Place → Option Value
  | .var index => v.var index
  | .entry map key => v.entry map key

/-- The number at a place; nothing stands for zero. -/
def count (v : View) (p : Place) : Int := ((v.stored p).bind Value.number?).getD 0

/-- The place is unset, or it holds a number that is not negative. -/
def HoldsCount (v : View) (p : Place) : Prop :=
  ∀ x, v.stored p = some x → ∃ n, x.number? = some n ∧ 0 ≤ n

theorem stored_update_of_ne {change : Update} (h : change.place? ≠ some p) :
    (v.update change).stored p = v.stored p := by
  cases change with
  | var index value =>
      cases p with
      | var i => exact if_neg fun hi => h (congrArg (fun i => some (Place.var i)) hi.symm)
      | entry map key => rfl
  | entry index k value =>
      cases p with
      | var i => rfl
      | entry map key =>
          refine if_neg ?_
          rintro ⟨rfl, rfl⟩
          exact h rfl
  | _ => cases p <;> rfl

theorem stored_foldl_update_of_ne {us : List Update} (h : ∀ change ∈ us, change.place? ≠ some p) :
    (us.foldl update v).stored p = v.stored p := by
  induction us generalizing v with
  | nil => rfl
  | cons change us ih =>
      have hrest := ih (v := v.update change) fun c hc => h c (List.mem_cons_of_mem change hc)
      exact hrest.trans (stored_update_of_ne (h change List.mem_cons_self))

/-! ### Writes of the token ledger -/

theorem LedgerWrites.place?_ne {descriptions : List String} {us : List Update}
    (h : v.LedgerWrites descriptions us) : ∀ change ∈ us, change.place? ≠ some p := by
  cases h <;> simp [Update.place?]

/-! ### Changes by positive deltas -/

/-- The place changes from the first state to the second by what is added to it less what is taken
from it; every one of these deltas is positive. -/
structure Tallies (v w : View) (p : Place) (added taken : List Int) : Prop where
  count_eq : w.count p = v.count p + added.sum - taken.sum
  positive : ∀ δ ∈ added ++ taken, 0 < δ
  holdsCount : v.HoldsCount p → w.HoldsCount p

theorem Tallies.of_stored_eq (h : w.stored p = v.stored p) : v.Tallies w p [] [] where
  count_eq := by simp [count, h]
  positive := nofun
  holdsCount hv x hx := hv x (h ▸ hx)

theorem Tallies.trans {added taken added' taken' : List Int} (h : v.Tallies w p added taken)
    (h' : w.Tallies u p added' taken') : v.Tallies u p (added ++ added') (taken ++ taken') where
  count_eq := by
    rw [h'.count_eq, h.count_eq, List.sum_append, List.sum_append]
    omega
  positive δ hδ := by
    have hboth := h.positive δ
    have hboth' := h'.positive δ
    simp only [List.mem_append] at hδ hboth hboth'
    tauto
  holdsCount hv := h'.holdsCount (h.holdsCount hv)

end View

/-! ### Moves are exact -/

namespace Value

theorem number?_of_zero? {type : DataType} {v : Value} {n : Int} (h : zero? type = some v)
    (hn : v.number? = some n) : n = 0 := by
  cases type <;> cases h <;> simp_all [number?]

theorem pos_of_sign? {v : Value} (h : v.sign? = some .gt) : ∃ n, v.number? = some n ∧ 0 < n := by
  obtain ⟨n, hn, hsign⟩ := Option.map_eq_some_iff.mp h
  refine ⟨n, hn, ?_⟩
  simp only [orderInt] at hsign
  grind

/-- A move computes on integers, whatever the numeric type. -/
theorem Moves.exact {direction : Direction} {current delta next : Value}
    (h : Moves direction current delta next) :
    ∃ x δ, current.number? = some x ∧ delta.number? = some δ ∧ 0 < δ ∧
      next.number? = some (direction.op.exact x δ) ∧
      (0 ≤ x → 0 ≤ direction.op.exact x δ) := by
  obtain ⟨δ, hdelta, hpositive⟩ := pos_of_sign? h.positive
  obtain ⟨x, y, n, hx, hy, -, happly, hnext⟩ := binary_eq_ok_iff.mp h.result
  obtain rfl : δ = y := Option.some.inj (hdelta.symm.trans hy)
  have hn : n = direction.op.exact x δ := by
    rw [BinaryOp.apply, if_neg (by cases direction <;> simp [Direction.op])] at happly
    exact (Except.ok.inj happly).symm
  have hnumber := number?_of_ofNumber? hnext
  rw [hn] at hnumber
  refine ⟨x, δ, hx, hdelta, hpositive, hnumber, fun hnonneg => ?_⟩
  cases direction with
  | add => exact Int.add_nonneg hnonneg hpositive.le
  | minus =>
      have hfloor := h.nonneg rfl
      by_contra hlt
      apply hfloor
      simp [sign?, hnumber, orderInt, Int.not_le.mp hlt]

end Value

/-- A place that a move leads from what it holds, or from zero, is tallied with the delta. -/
theorem View.Tallies.of_moves {v w : View} {p : Place} {type : DataType} {direction : Direction}
    {current delta next : Value} (hcurrent : (v.stored p).or (Value.zero? type) = some current)
    (hmoves : Value.Moves direction current delta next) (hw : w.stored p = some next) :
    v.Tallies w p (if direction = .add then delta.number?.toList else [])
      (if direction = .minus then delta.number?.toList else []) := by
  obtain ⟨x, δ, hx, hdelta, hpositive, hnext, hnonneg⟩ := hmoves.exact
  have hcount : v.count p = x := by
    rcases Option.or_eq_some_iff.mp hcurrent with hstored | ⟨hnone, hzero⟩
    · simp [count, hstored, hx]
    · simp [count, hnone, Value.number?_of_zero? hzero hx]
  have hnew : w.count p = direction.op.exact x δ := by simp [count, hw, hnext]
  refine ⟨?_, ?_, ?_⟩
  · rw [hnew, hcount, hdelta]
    cases direction <;> simp [Direction.op, BinaryOp.exact]
  · cases direction <;> simpa [hdelta] using hpositive
  · intro hv y hy
    obtain rfl : next = y := Option.some.inj (hw.symm.trans hy)
    refine ⟨_, hnext, hnonneg ?_⟩
    rcases Option.or_eq_some_iff.mp hcurrent with hstored | ⟨-, hzero⟩
    · obtain ⟨n, hn, hle⟩ := hv current hstored
      rwa [Option.some.inj (hx.symm.trans hn)]
    · exact (Value.number?_of_zero? hzero hx).ge

/-! ### The deltas of a body -/

namespace Machine

/-- The number by which an instruction moves the place in the direction, if it does. -/
def delta? (m : Machine) (p : Place) (direction : Direction) : Instruction → Option Int
  | .moveVar moved var value =>
    if p = .var var ∧ moved = direction then (m.registers.cells.get? value).bind Value.number?
    else none
  | .moveEntry moved map key value =>
    if (m.registers.cells.get? key).map (Place.entry map) = some p ∧ moved = direction then
      (m.registers.cells.get? value).bind Value.number?
    else none
  | _ => none

/-- The deltas that the code applies to the place in the direction, in order; the first
instruction is number `position`. -/
def applied (env : Env) (p : Place) (direction : Direction) :
    (position : Nat) → List Instruction → Machine → List Int
  | _, [], _ => []
  | position, i :: rest, m =>
    match m.step env position i with
    | .ok next =>
      (m.delta? p direction i).toList ++ applied env p direction (position + 1) rest next
    | .error _ => []

variable {env : Env} {m next : Machine} {p : Place} {i : Instruction}

theorem tallies_of_yields {us : List Update}
    (h : i.Yields env m.overlay.view m.registers (.updates us)) (hi : p.isSetBy i = false) :
    m.overlay.view.Tallies (us.foldl View.update m.overlay.view) p (m.delta? p .add i).toList
      (m.delta? p .minus i).toList := by
  have hother : (∀ change ∈ us, change.place? ≠ some p) → m.delta? p .add i = none →
      m.delta? p .minus i = none →
      m.overlay.view.Tallies (us.foldl View.update m.overlay.view) p (m.delta? p .add i).toList
        (m.delta? p .minus i).toList := by
    intro hus hadd hminus
    rw [hadd, hminus]
    exact .of_stored_eq (View.stored_foldl_update_of_ne hus)
  cases h with
  | assertParty => exact hother (List.forall_mem_nil _) rfl rfl
  | assertTrue => exact hother (List.forall_mem_nil _) rfl rfl
  | assertPermitted => exact hother (List.forall_mem_nil _) rfl rfl
  | assertEqual => exact hother (List.forall_mem_nil _) rfl rfl
  | assertNotExpired => exact hother (List.forall_mem_nil _) rfl rfl
  | @setVar var value d v hd hv htype =>
      refine hother ?_ rfl rfl
      cases p <;> simp_all [Update.place?, Place.isSetBy]
  | @moveVar direction var value d delta current next hd hdelta htype hcurrent hnext =>
      by_cases hp : p = .var var
      · subst hp
        obtain ⟨-, hcell⟩ := RegisterFile.get?_eq_some_iff.mp hdelta
        have htallies := View.Tallies.of_moves (v := m.overlay.view)
          (w := m.overlay.view.update (.var var next)) (p := .var var) hcurrent hnext (if_pos rfl)
        cases direction <;> simpa [delta?, hcell] using htallies
      · exact hother (by simp [Update.place?, Ne.symm hp]) (by simp [delta?, hp])
          (by simp [delta?, hp])
  | @setEntry map key value d k v hd hk hkey hv htype =>
      refine hother ?_ rfl rfl
      cases p <;> simp_all [Update.place?, Place.isSetBy]
  | @moveEntry direction map key value d k delta current next hd hk hkey hdelta htype hcurrent
      hnext =>
      obtain ⟨-, hkeyCell⟩ := RegisterFile.get?_eq_some_iff.mp hk
      by_cases hp : p = .entry map k
      · subst hp
        obtain ⟨-, hcell⟩ := RegisterFile.get?_eq_some_iff.mp hdelta
        have htallies := View.Tallies.of_moves (v := m.overlay.view)
          (w := m.overlay.view.update (.entry map k next)) (p := .entry map k) hcurrent hnext
          (if_pos ⟨rfl, rfl⟩)
        cases direction <;> simpa [delta?, hcell, hkeyCell] using htallies
      · exact hother (by simp [Update.place?, Ne.symm hp]) (by simp [delta?, hkeyCell, Ne.symm hp])
          (by simp [delta?, hkeyCell, Ne.symm hp])
  | newToken => exact hother (View.ledgerWrites_newToken _ _ _ _).place?_ne rfl rfl
  | deposit => exact hother (View.ledgerWrites_deposit _ _ _ _).place?_ne rfl rfl
  | transfer => exact hother (View.ledgerWrites_transfer _ _ _ _ _).place?_ne rfl rfl

theorem delta?_of_result {dest : Register} {v : Value} {direction : Direction}
    (h : i.Yields env m.overlay.view m.registers (.result dest v)) :
    m.delta? p direction i = none := by
  cases h <;> rfl

/-- A step that succeeds changes a counter by the delta that it applies. -/
theorem tallies_of_step (hstep : m.Steps env i next) (hi : p.isSetBy i = false) :
    next.overlay.base = m.overlay.base ∧
      m.overlay.view.Tallies next.overlay.view p (m.delta? p .add i).toList
        (m.delta? p .minus i).toList := by
  cases hstep with
  | result hyields hdest =>
      rw [delta?_of_result hyields, delta?_of_result hyields]
      exact ⟨rfl, .of_stored_eq rfl⟩
  | updates hyields =>
      refine ⟨rfl, ?_⟩
      rw [Overlay.view_record]
      exact tallies_of_yields hyields hi

theorem tallies_of_runFrom {code : List Instruction} {position : Nat} {last : Machine}
    (hrun : m.runFrom env position code = .ok last) (hcode : ∀ i ∈ code, p.isSetBy i = false) :
    last.overlay.base = m.overlay.base ∧
      m.overlay.view.Tallies last.overlay.view p (applied env p .add position code m)
        (applied env p .minus position code m) := by
  induction code generalizing position m with
  | nil =>
      cases hrun
      exact ⟨rfl, .of_stored_eq rfl⟩
  | cons i rest ih =>
      obtain ⟨next, hstep, hrest⟩ := runFrom_cons_eq_ok_iff.mp hrun
      obtain ⟨hbase, hfirst⟩ := tallies_of_step hstep (hcode i List.mem_cons_self)
      obtain ⟨hlast, htail⟩ := ih hrest fun j hj => hcode j (List.mem_cons_of_mem i hj)
      refine ⟨hlast.trans hbase, ?_⟩
      simp only [applied, step_eq_ok_iff.mpr hstep]
      exact hfirst.trans htail

end Machine

/-! ### The deltas of a call -/

namespace Deployment

/-- The deltas that a run of a function applies to the place. -/
def applied (d : Deployment Store) (p : Place) (direction : Direction) (f : Function)
    (context : Context) (args : List Value) : List Int :=
  match f.seed d.contract.limits.registerCapacity args with
  | .ok registers =>
    Machine.applied ⟨d.contract.contract, context⟩ p direction 0 f.code
      ⟨registers, { base := d.store.view }⟩
  | .error _ => []

/-- The deltas that the body of a call applies to the place. -/
def deltas (d : Deployment Store) (p : Place) (direction : Direction) (c : Call) : List Int :=
  match d.target? c with
  | some (f, args) => d.applied p direction f c.context args
  | none => []

variable {d next : Deployment Store} {p : Place}

theorem stored_apply (s : Store) (w : WriteSet) (p : Place) :
    (s.apply w).view.stored p = (Overlay.mk s.view w).view.stored p := by
  cases p with
  | var index => exact OrderedMap.get?_merge s.vars w.vars index
  | entry map key => exact OrderedMap.get?_merge s.entries w.entries ⟨map, key⟩

theorem tallies_of_call {f : Function} {context : Context} {args : List Value}
    (hcall : d.call f context args = .ok next) (hcode : ∀ i ∈ f.code, p.isSetBy i = false) :
    next.contract = d.contract ∧
      d.store.view.Tallies next.store.view p (d.applied p .add f context args)
        (d.applied p .minus f context args) := by
  simp only [call, Function.call, Function.run] at hcall
  simp only [applied]
  cases hseed : f.seed d.contract.limits.registerCapacity args with
  | error e => simp [hseed] at hcall
  | ok registers =>
      cases hrun : Machine.runFrom ⟨d.contract.contract, context⟩ 0 f.code
          ⟨registers, { base := Storage.view d.store }⟩ with
      | error e => simp [hseed, hrun] at hcall
      | ok m =>
          simp only [hseed, hrun] at hcall
          cases hcall
          obtain ⟨hbase, htallies⟩ := Machine.tallies_of_runFrom hrun hcode
          have hcommit : (d.store.apply m.overlay.writes).view.stored p =
              m.overlay.view.stored p := by
            rw [stored_apply]
            exact congrArg (fun base => (Overlay.mk base m.overlay.writes).view.stored p) hbase.symm
          have hkeep := htallies.trans (.of_stored_eq hcommit)
          simp only [List.append_nil] at hkeep
          exact ⟨rfl, hkeep⟩

end Deployment

/-! ### Runs -/

/-- A place that no trigger and no function of a contract sets is an exact counter. Its deployment
starts it at what the init trigger moved it by; in every state that is reached it is unset or not
negative; a call that succeeds changes it by the deltas that its body added less those that its
body took away, all of them positive; and a call that fails changes nothing. -/
theorem ValidContract.moved_places_count {v : ValidContract} {context : Context}
    {args : List Value} {d : Deployment Store}
    (hdeploy : Deployment.deploy v ({} : Store) context args = .ok d) {p : Place}
    (hp : ∀ f ∈ v.contract.triggers ++ v.contract.functions, ∀ i ∈ f.code, p.isSetBy i = false)
    (calls : List Call) :
    d.store.view.count p =
        ((Deployment.mk v {}).applied p .add v.initTrigger context args).sum -
          ((Deployment.mk v {}).applied p .minus v.initTrigger context args).sum ∧
      (d.after calls).store.view.HoldsCount p ∧
      (∀ call next, (d.after calls).perform call = .ok next →
        next.store.view.count p = (d.after calls).store.view.count p +
            ((d.after calls).deltas p .add call).sum -
            ((d.after calls).deltas p .minus call).sum ∧
          ∀ δ ∈ (d.after calls).deltas p .add call ++ (d.after calls).deltas p .minus call,
            0 < δ) ∧
      ∀ call e, (d.after calls).perform call = .error e →
        (d.after calls).attempt call = d.after calls := by
  obtain ⟨hcontract, hinit⟩ :=
    Deployment.tallies_of_call hdeploy (hp v.initTrigger v.initTrigger_mem)
  have hempty : ({} : Store).view.HoldsCount p := by
    cases p <;> exact nofun
  -- one call: whatever it runs, the code does not set the place
  have hstep : ∀ (d next : Deployment Store) (call : Call), d.contract = v →
      d.perform call = .ok next → next.contract = v ∧
        d.store.view.Tallies next.store.view p (d.deltas p .add call)
          (d.deltas p .minus call) := by
    rintro d next call rfl hperform
    obtain ⟨f, hf, args, htarget, hcall⟩ := Deployment.exists_target_of_perform hperform
    simp only [Deployment.deltas, htarget]
    exact Deployment.tallies_of_call hcall (hp f hf)
  have hrun : (d.after calls).contract = v ∧ (d.after calls).store.view.HoldsCount p := by
    refine Deployment.run_induction
      (I := fun (d : Deployment Store) _ => d.contract = v ∧ d.store.view.HoldsCount p)
      ⟨hcontract, hinit.holdsCount hempty⟩ ?_ calls
    rintro d past call next ⟨hd, hcount⟩ hperform
    obtain ⟨hnext, htallies⟩ := hstep d next call hd hperform
    exact ⟨hnext, htallies.holdsCount hcount⟩
  refine ⟨?_, hrun.2, fun call next hperform => ?_, fun call e herror => ?_⟩
  · have hzero : ({} : Store).view.count p = 0 := by cases p <;> rfl
    have hcount := hinit.count_eq
    rw [hzero, Int.zero_add] at hcount
    exact hcount
  · obtain ⟨-, htallies⟩ := hstep _ next call hrun.1 hperform
    exact ⟨htallies.count_eq, htallies.positive⟩
  · rw [Deployment.attempt, herror]

/-- Savings are moved only. A charge of twenty-five thousandths takes fifty from two thousand. -/
theorem Savings.charge_counts :
    let saver : Address := ⟨List.replicate 26 1, rfl⟩
    let calls : List Call := [.deposit ⟨saver, 0⟩ saver 2000 {}]
    let call : Call := .invoke charge.id { caller := some saver } [.amount 25]
    let place : Place := .entry 0 (.address saver)
    ∃ d next, Deployment.deploy valid ({} : Store) {} [.tokenId ⟨saver, 0⟩] = .ok d ∧
      (d.after calls).perform call = .ok next ∧
      (d.after calls).store.view.HoldsCount place ∧
      (d.after calls).store.view.count place = 2000 ∧ next.store.view.count place = 1950 := by
  intro saver calls call place
  let d : Deployment Store := ⟨valid, { vars := .ofList [(0, .tokenId ⟨saver, 0⟩)] }⟩
  have hd : Deployment.deploy valid ({} : Store) {} [.tokenId ⟨saver, 0⟩] = .ok d := rfl
  obtain ⟨next, hnext⟩ :=
    exists_of_isOk (x := (d.after calls).perform call) (by decide +kernel)
  have hbefore : (d.after calls).store.view.count place = 2000 := by decide +kernel
  have hadded : (d.after calls).deltas place .add call = [] := by decide +kernel
  have htaken : (d.after calls).deltas place .minus call = [50] := by decide +kernel
  have hmoved : ∀ f ∈ valid.contract.triggers ++ valid.contract.functions, ∀ i ∈ f.code,
      place.isSetBy i = false := by decide +kernel
  obtain ⟨-, hholds, hcalls, -⟩ := ValidContract.moved_places_count hd hmoved calls
  obtain ⟨hcount, -⟩ := hcalls call next hnext
  rw [hbefore, hadded, htaken] at hcount
  exact ⟨d, next, hd, hnext, hholds, hbefore, hcount⟩

end ContractMachine
