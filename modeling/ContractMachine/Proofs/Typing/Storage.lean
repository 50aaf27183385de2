import ContractMachine.Proofs.Amounts
import ContractMachine.Proofs.Calls
import ContractMachine.Proofs.State.Operations
import ContractMachine.Proofs.Typing.Operands
import ContractMachine.Proofs.Wire.Reload

/-! What the store of a contract holds. Every value that a run computes fits the wire format, and
the machine writes only to declared slots and only what they are declared for; so the store of a
deployed contract can be encoded whatever is called. -/

namespace ContractMachine

/-! ### Values that fit the wire format -/

namespace TwosComplement

/-- A smaller number needs no more bytes. -/
theorem minWidth_le {m n : Nat} (h : m ≤ n) : minWidth m ≤ minWidth n := by
  have hholds := (minWidth_le_iff (Nat.succ_pos _)).mp (Nat.le_refl (minWidth n))
  exact (minWidth_le_iff (Nat.succ_pos _)).mpr ⟨by omega, by omega⟩

end TwosComplement

namespace Value

theorem encodable_of_zero? {type : DataType} {v : Value} (h : zero? type = some v) :
    v.encodable = true := by
  cases type <;> cases h <;> rfl

theorem encodable_of_ofNumber? {type : DataType} {n : Int} {v : Value}
    (h : ofNumber? type n = some v) : v.encodable = true := by
  cases type <;> simp [ofNumber?] at h
  case amount => obtain ⟨x, -, rfl⟩ := h; rfl
  case int32 => obtain ⟨x, -, rfl⟩ := h; rfl
  case bigInteger => obtain ⟨hfits, rfl⟩ := h; exact hfits

theorem encodable_of_binary {op : BinaryOp} {a b v : Value} (h : binary op a b = .ok v) :
    v.encodable = true := by
  obtain ⟨x, y, n, -, -, -, -, hv⟩ := binary_eq_ok_iff.mp h
  exact encodable_of_ofNumber? hv

theorem encodable_of_sqrtInt {n root : Int} (hn : (bigInteger n).encodable = true)
    (h : sqrtInt n = .ok root) : (bigInteger root).encodable = true := by
  rw [sqrtInt] at h
  split at h
  · cases h
  · rename_i hsign
    obtain ⟨m, rfl⟩ := Int.eq_ofNat_of_zero_le (Int.not_lt.mp hsign)
    cases h
    have hroot : floorSqrt m ≤ m := (Nat.le_mul_self _).trans (floorSqrt_spec m).1
    have hwidth : TwosComplement.minWidth m ≤ maxBigInteger := of_decide_eq_true hn
    exact decide_eq_true ((TwosComplement.minWidth_le hroot).trans hwidth)

/-- Amounts are short enough as big integers. -/
theorem encodable_of_convert {v w : Value} {type : DataType} (h : v.convert type = .ok w) :
    w.encodable = true := by
  rcases convert_eq_ok_iff.mp h with ⟨n, rfl, rfl, rfl⟩ | ⟨x, rfl, rfl, rfl⟩
  · exact encodable_of_bitBound (by decide)
  · rfl

end Value

/-! ### Contents of a state -/

/-- An update that writes to a declared slot what it is declared for; everything that it writes
fits the wire format. -/
def Update.Conforms (c : Contract) : Update → Prop
  | .var index v => ∃ d, c.stateVar? index = some d ∧ v.type = d.type ∧ v.encodable = true
  | .entry index k v => ∃ d, c.stateMap? index = some d ∧
      (k.type = d.key ∧ k.encodable = true) ∧ v.type = d.value ∧ v.encodable = true
  | .token _ t => (Value.shortText t.description).encodable = true
  | .tokenCount _ | .balance _ _ _ => True

namespace View

variable {view : View} {c : Contract}

theorem encodable_var (h : view.Every (Update.Conforms c)) {index : SlotIndex} {v : Value}
    (hv : view.var index = some v) : v.encodable = true := by
  obtain ⟨d, -, -, hfits⟩ := h.var index v hv
  exact hfits

theorem encodable_entry (h : view.Every (Update.Conforms c)) {index : SlotIndex} {k v : Value}
    (hv : view.entry index k = some v) : v.encodable = true := by
  obtain ⟨d, -, -, -, hfits⟩ := h.entry index k v hv
  exact hfits

/-! ### Writes of the token ledger -/

/-- New tokens have one of the given descriptions, and a deposit leaves that of its token as it
is. -/
theorem LedgerWrites.conforms {descriptions : List String} {us : List Update}
    (h : view.LedgerWrites descriptions us) (hview : view.Every (Update.Conforms c))
    (hnew : ∀ s ∈ descriptions, (Value.shortText s).encodable = true) :
    ∀ u ∈ us, u.Conforms c := by
  cases h with
  | newToken hdescription hmax hunit hcount => simpa [Update.Conforms] using hnew _ hdescription
  | deposit htoken hamount hsupply hbalance =>
      simpa [Update.Conforms] using hview.token _ _ htoken
  | _ => simp [Update.Conforms]

end View

/-! ### Runs -/

/-- The result fits the wire format, or the updates conform to the declarations. -/
def Effect.Conforms (c : Contract) : Effect → Prop
  | .result _ v => v.encodable = true
  | .updates us => ∀ u ∈ us, u.Conforms c

def RegisterFile.Encodable (r : RegisterFile) : Prop :=
  ∀ j v, r.get? j = some v → v.encodable = true

theorem Instruction.Yields.conforms {env : Env} {view : View} {r : RegisterFile}
    {i : Instruction} {effect : Effect} (h : i.Yields env view r effect) (hliteral : i.Carried)
    (hregisters : r.Encodable) (hview : view.Every (Update.Conforms env.contract)) :
    effect.Conforms env.contract := by
  cases h with
  | loadParty ha => rfl
  | loadTimestamp hnow => rfl
  | loadLastTokenIndex hn => rfl
  | assertParty hv ha hparty => exact List.forall_mem_nil _
  | assertTrue hcond => exact List.forall_mem_nil _
  | assertPermitted hcond => exact List.forall_mem_nil _
  | assertEqual ha hb => exact List.forall_mem_nil _
  | assertNotExpired hnow hdeadline hle => exact List.forall_mem_nil _
  | constant => exact hliteral
  | binary ha hb hv => exact Value.encodable_of_binary hv
  | sqrt ha hroot => exact Value.encodable_of_sqrtInt (hregisters _ _ ha) hroot
  | convert htarget hvalue hw => exact Value.encodable_of_convert hw
  | not ha => rfl
  | compare ha hb horder => rfl
  | @setVar var value d v hd hv htype =>
      have hconforms : (Update.var var v).Conforms env.contract := ⟨d, hd, htype, hregisters _ _ hv⟩
      simpa [Effect.Conforms] using hconforms
  | getVar hd hv => exact View.encodable_var hview hv
  | getVarOrZero hd hv =>
      exact Value.of_or_zero? hv (fun _ => View.encodable_var hview)
        fun _ => Value.encodable_of_zero?
  | @moveVar direction var value d delta current next hd hdelta htype hcurrent hnext =>
      have hconforms : (Update.var var next).Conforms env.contract :=
        ⟨d, hd, (Value.type_of_binary hnext.result).2.trans htype,
          Value.encodable_of_binary hnext.result⟩
      simpa [Effect.Conforms] using hconforms
  | @setEntry map key value d k v hd hk hkey hv htype =>
      have hconforms : (Update.entry map k v).Conforms env.contract :=
        ⟨d, hd, ⟨hkey, hregisters _ _ hk⟩, htype, hregisters _ _ hv⟩
      simpa [Effect.Conforms] using hconforms
  | @moveEntry direction map key value d k delta current next hd hk hkey hdelta htype hcurrent
      hnext =>
      have hconforms : (Update.entry map k next).Conforms env.contract :=
        ⟨d, hd, ⟨hkey, hregisters _ _ hk⟩, (Value.type_of_binary hnext.result).2.trans htype,
          Value.encodable_of_binary hnext.result⟩
      simpa [Effect.Conforms] using hconforms
  | getEntry hd hk hkey hv => exact View.encodable_entry hview hv
  | getEntryOrZero hd hk hkey hv =>
      exact Value.of_or_zero? hv (fun _ => View.encodable_entry hview)
        fun _ => Value.encodable_of_zero?
  | newToken hmax hunit htext hok =>
      refine (view.ledgerWrites_newToken _ _ _).conforms hview ?_
      exact List.forall_mem_singleton.mpr (hregisters _ _ htext)
  | deposit htoken hamount hv ha hok =>
      exact (view.ledgerWrites_deposit _ _ _).conforms hview (List.forall_mem_nil _)
  | transfer hv ha htoken hamount hw hb hok =>
      exact (view.ledgerWrites_transfer _ _ _ _).conforms hview (List.forall_mem_nil _)
  | balance htoken hv ha hx => rfl

/-- All that a machine above `base` holds fits the wire format, and its state conforms to the
declarations. -/
structure Machine.Conforms (c : Contract) (base : View) (m : Machine) : Prop where
  base_eq : m.overlay.base = base
  registers : m.registers.Encodable
  view : m.overlay.view.Every (Update.Conforms c)

namespace Machine.Conforms

variable {c : Contract} {base : View} {context : Context} {m next : Machine}

theorem step (h : m.Conforms c base) {i : Instruction} (hi : i.Carried)
    (hstep : m.Steps ⟨c, context⟩ i next) : next.Conforms c base := by
  cases hstep with
  | @result dest v hyields hdest =>
      have hv : v.encodable = true := hyields.conforms hi h.registers h.view
      refine ⟨h.base_eq, fun j w hw => ?_, h.view⟩
      rw [RegisterFile.get?_write hdest] at hw
      split at hw
      · cases hw
        exact hv
      · exact h.registers j w hw
  | @updates us hyields =>
      have hus : ∀ u ∈ us, u.Conforms c := hyields.conforms hi h.registers h.view
      refine ⟨h.base_eq, h.registers, ?_⟩
      rw [Overlay.view_record]
      exact h.view.foldl_update hus

theorem runFrom {code : List Instruction} {position : Nat} (h : m.Conforms c base)
    (hcode : ∀ i ∈ code, i.Carried) (hrun : m.runFrom ⟨c, context⟩ position code = .ok next) :
    next.Conforms c base := by
  induction code generalizing position m with
  | nil =>
      cases hrun
      exact h
  | cons i rest ih =>
      obtain ⟨after, hstep, hrest⟩ := runFrom_cons_eq_ok_iff.mp hrun
      have hafter := h.step (hcode i List.mem_cons_self) hstep
      exact ih hafter (fun j hj => hcode j (List.mem_cons_of_mem i hj)) hrest

end Machine.Conforms

/-! ### Stores -/

/-- Every slot that is set is declared and holds a value of its declared type; every value, key
and description of a token fits the wire format. -/
structure Store.Conforms (s : Store) (c : Contract) : Prop where
  view : s.view.Every (Update.Conforms c)
  tokens : ∀ t ∈ s.tokens, (Value.shortText t.description).encodable = true

namespace Store

variable {s : Store} {c : Contract}

theorem mem_putToken {tokens : List Token} {index : TokenIndex} {token t : Token}
    (h : t ∈ putToken tokens index token) : t ∈ tokens ∨ t = token := by
  rw [putToken] at h
  split at h
  · exact List.mem_or_eq_of_mem_set h
  · simpa using h

theorem mem_foldl_putToken {entries : List (TokenIndex × Token)} {tokens : List Token} {t : Token}
    (h : t ∈ entries.foldl (fun tokens (index, token) => putToken tokens index token) tokens) :
    t ∈ tokens ∨ ∃ index, (index, t) ∈ entries := by
  induction entries generalizing tokens with
  | nil => exact .inl h
  | cons e rest ih =>
      rcases ih h with hmem | ⟨index, hmem⟩
      · rcases mem_putToken hmem with hold | rfl
        · exact .inl hold
        · exact .inr ⟨e.1, List.mem_cons_self⟩
      · exact .inr ⟨index, List.mem_cons_of_mem e hmem⟩

/-- Committing an overlay keeps what the store and the overlay have in common. -/
theorem Conforms.apply (h : s.Conforms c) {w : WriteSet}
    (hw : (Overlay.mk s.view w).view.Every (Update.Conforms c)) : (s.apply w).Conforms c := by
  have htokens : ∀ t ∈ (s.apply w).tokens, (Value.shortText t.description).encodable = true := by
    intro t ht
    rcases mem_foldl_putToken ht with hold | ⟨index, hnew⟩
    · exact h.tokens t hold
    · have hget : w.tokens.get? index = some t := OrderedMap.get?_eq_some_iff.mpr hnew
      exact hw.token index t (by simp [Overlay.view, hget])
  refine ⟨⟨fun i v hv => ?_, fun i k v hv => ?_, fun i t ht => ?_⟩, htokens⟩
  · exact hw.var i v ((OrderedMap.get?_merge s.vars w.vars i).symm.trans hv)
  · exact hw.entry i k v ((OrderedMap.get?_merge s.entries w.entries ⟨i, k⟩).symm.trans hv)
  · exact htokens t (List.mem_of_getElem? ht)

end Store

/-! ### Deployed contracts -/

theorem RegisterFile.encodable_ofValues {capacity : Nat} {values : List Value}
    (h : ∀ v ∈ values, v.encodable = true) : (ofValues capacity values).Encodable := by
  intro j v hv
  obtain ⟨-, hget⟩ := get?_eq_some_iff.mp hv
  rw [get?_ofValues] at hget
  exact h v (List.mem_of_getElem? hget)

namespace Deployment

variable {d next : Deployment Store}

theorem conforms_call {f : Function} {context : Context} {args : List Value}
    (hf : f ∈ d.contract.contract.triggers ++ d.contract.contract.functions)
    (h : d.store.Conforms d.contract.contract) (hcall : d.call f context args = .ok next) :
    next.contract = d.contract ∧ next.store.Conforms d.contract.contract := by
  obtain ⟨hlimits, -⟩ := Contract.defects_eq_nil_iff.mp d.contract.accepted
  have hwithin := Contract.limitDefects_eq_nil_iff.mp hlimits
  have hcarried : f.Carried := (hwithin.bodies f hf).carried hwithin.format
  rw [call, Function.call] at hcall
  cases hrun : f.run ⟨d.contract.contract, context⟩ d.contract.limits.registerCapacity
      (Storage.view d.store) args with
  | error e => simp [hrun] at hcall
  | ok m =>
      rw [hrun] at hcall
      cases hcall
      obtain ⟨⟨-, hargs⟩, -, hbody⟩ := Function.run_eq_ok hrun
      have hstart : Machine.Conforms d.contract.contract d.store.view
          ⟨.ofValues d.contract.limits.registerCapacity args, { base := d.store.view }⟩ :=
        ⟨rfl, RegisterFile.encodable_ofValues hargs, h.view⟩
      obtain ⟨hbase, -, hview⟩ := hstart.runFrom hcarried.literals hbody
      refine ⟨rfl, h.apply ?_⟩
      rwa [← hbase]

end Deployment

/-- Whatever is called after a contract was deployed on an empty store, the store holds in declared
slots what they are declared for, and all of it fits the wire format. -/
theorem ValidContract.stored_values_conform {v : ValidContract} {context : Context}
    {args : List Value} {d : Deployment Store}
    (hdeploy : Deployment.deploy v ({} : Store) context args = .ok d) (calls : List Call) :
    (d.after calls).store.Conforms v.contract := by
  have hempty : ({} : Store).Conforms v.contract :=
    ⟨⟨nofun, nofun, nofun⟩, nofun⟩
  have hstart : d.contract = v ∧ d.store.Conforms v.contract :=
    Deployment.conforms_call v.initTrigger_mem hempty hdeploy
  refine (Deployment.run_induction
    (I := fun (d : Deployment Store) _ => d.contract = v ∧ d.store.Conforms v.contract)
    hstart ?_ calls).2
  rintro d past c next ⟨rfl, hd⟩ hperform
  obtain ⟨f, hf, context, args, hcall⟩ := Deployment.exists_call_of_perform hperform
  exact Deployment.conforms_call hf hd hcall

/-- The store of savings after a deposit, a charge and a withdrawal. -/
theorem ValidContract.stored_values_of_savings :
    let saver : Address := ⟨List.replicate 26 1, rfl⟩
    let token : TokenId := ⟨saver, 0⟩
    let calls : List Call :=
      [.deposit token saver 2000 {},
        .invoke Savings.charge.id { caller := some saver } [.amount 25],
        .withdraw token saver 1950 {}]
    ∃ d, Deployment.deploy Savings.valid ({} : Store) {} [.tokenId token] = .ok d ∧
      (d.history calls).length = 3 ∧ (d.after calls).store.Conforms Savings.contract := by
  intro saver token calls
  let d : Deployment Store := ⟨Savings.valid, { vars := .ofList [(0, .tokenId token)] }⟩
  have hd : Deployment.deploy Savings.valid ({} : Store) {} [.tokenId token] = .ok d := rfl
  exact ⟨d, hd, by decide +kernel, stored_values_conform hd calls⟩

end ContractMachine
