import ContractMachine.Machine.Run

/-! What instructions do. One rule for each instruction says what it needs and what follows from
it; an instruction succeeds if and only if its rule applies. The rules leave out the order in which
operands are fetched and the position of the instruction, which matter only to failures. -/

namespace ContractMachine

/-! ### Computations and operands -/

theorem bind_eq_ok_iff {ε α β : Type} {x : Except ε α} {f : α → Except ε β} {b : β} :
    x >>= f = .ok b ↔ ∃ a, x = .ok a ∧ f a = .ok b := by
  cases x with
  | ok a => simp [bind, Except.bind]
  | error e => simp [bind, Except.bind]

theorem exists_of_isOk {ε α : Type} {x : Except ε α} (h : x.isOk = true) : ∃ a, x = .ok a := by
  cases x with
  | ok a => exact ⟨a, rfl⟩
  | error e => cases h

theorem pure_eq_ok_iff {ε α : Type} {a b : α} : (pure a : Except ε α) = .ok b ↔ a = b := by
  simp [pure, Except.pure]

theorem throw_ne_ok {ε α : Type} {e : ε} {a : α} : (throw e : Except ε α) ≠ .ok a := by
  simp [throw, throwThe, MonadExceptOf.throw]

theorem ite_throw_eq_ok_iff {ε α : Type} {p : Prop} [Decidable p] {x : Except ε α} {e : ε} {a : α} :
    (if p then x else throw e) = .ok a ↔ p ∧ x = .ok a := by
  by_cases h : p <;> simp [h, throw_ne_ok]

theorem Fault.lift_eq_ok_iff {α : Type} {op : Opcode} {position : Nat} {x : Except Fault α}
    {a : α} : Fault.lift op position x = .ok a ↔ x = .ok a := by
  cases x <;> simp [Fault.lift]

namespace RegisterFile

/-- What a register holds, if it is there and is set. -/
def get? (r : RegisterFile) (i : Register) : Option Value :=
  if i.toNat < r.capacity then r.cells.get? i else none

/-- The file with a value in a register, which is there. -/
def write (r : RegisterFile) (i : Register) (v : Value) : RegisterFile :=
  { r with cells := r.cells.insert i v }

@[simp] theorem capacity_write (r : RegisterFile) (i : Register) (v : Value) :
    (r.write i v).capacity = r.capacity := rfl

variable {r : RegisterFile} {i : Register} {position : Nat}

theorem get?_eq_some_iff {v : Value} :
    r.get? i = some v ↔ i.toNat < r.capacity ∧ r.cells.get? i = some v := by
  by_cases hi : i.toNat < r.capacity <;> simp [get?, hi]

/-- A register reads as what was written to it last. -/
theorem get?_write {v : Value} (hi : i.toNat < r.capacity) (j : Register) :
    (r.write i v).get? j = if j = i then some v else r.get? j := by
  by_cases hj : j = i
  · subst hj
    simp [get?, write, hi]
  · simp [get?, write, hj, OrderedMap.get?_insert_of_ne]

theorem set_eq_ok_iff {v : Value} {next : RegisterFile} :
    r.set i v position = .ok next ↔ i.toNat < r.capacity ∧ r.write i v = next := by
  by_cases hi : i.toNat < r.capacity <;> simp [set, write, hi]

theorem get_eq_ok_iff {v : Value} : r.get i position = .ok v ↔ r.get? i = some v := by
  rw [get, get?]
  by_cases hi : i.toNat < r.capacity
  · cases r.cells.get? i <;> simp [hi]
  · simp [hi]

theorem getTyped_eq_ok_iff {type : DataType} {v : Value} :
    r.getTyped type i position = .ok v ↔ r.get? i = some v ∧ v.type = type := by
  simp only [getTyped, bind_eq_ok_iff, ite_throw_eq_ok_iff, pure_eq_ok_iff, get_eq_ok_iff]
  constructor
  · rintro ⟨w, hget, htype, rfl⟩
    exact ⟨hget, htype⟩
  · rintro ⟨hget, htype⟩
    exact ⟨v, hget, htype, rfl⟩

/-- A reader that takes the values of one form gives what they are formed from. -/
theorem get_bind_eq_ok_iff {α : Type} {f : Value → Except ExecError α} {form : α → Value} {a : α}
    (hf : ∀ v, f v = .ok a ↔ v = form a) :
    r.get i position >>= f = .ok a ↔ r.get? i = some (form a) := by
  simp [bind_eq_ok_iff, get_eq_ok_iff, hf]

theorem getAmount_eq_ok_iff {n : Int64} :
    r.getAmount i position = .ok n ↔ r.get? i = some (.amount n) :=
  get_bind_eq_ok_iff fun v => by
    cases v <;> simp [pure_eq_ok_iff, throw_ne_ok]

theorem getInt32_eq_ok_iff {n : Int32} :
    r.getInt32 i position = .ok n ↔ r.get? i = some (.int32 n) :=
  get_bind_eq_ok_iff fun v => by
    cases v <;> simp [pure_eq_ok_iff, throw_ne_ok]

theorem getBool_eq_ok_iff {b : Bool} :
    r.getBool i position = .ok b ↔ r.get? i = some (.boolean b) :=
  get_bind_eq_ok_iff fun v => by
    cases v <;> simp [pure_eq_ok_iff, throw_ne_ok]

theorem getTimestamp_eq_ok_iff {n : Int64} :
    r.getTimestamp i position = .ok n ↔ r.get? i = some (.timestamp n) :=
  get_bind_eq_ok_iff fun v => by
    cases v <;> simp [pure_eq_ok_iff, throw_ne_ok]

theorem getText_eq_ok_iff {s : String} :
    r.getText i position = .ok s ↔ r.get? i = some (.shortText s) :=
  get_bind_eq_ok_iff fun v => by
    cases v <;> simp [pure_eq_ok_iff, throw_ne_ok]

theorem getBigInteger_eq_ok_iff {n : Int} :
    r.getBigInteger i position = .ok n ↔ r.get? i = some (.bigInteger n) :=
  get_bind_eq_ok_iff fun v => by
    cases v <;> simp [pure_eq_ok_iff, throw_ne_ok]

theorem getDataType_eq_ok_iff {t : DataType} :
    r.getDataType i position = .ok t ↔ r.get? i = some (.dataType t) :=
  get_bind_eq_ok_iff fun v => by
    cases v <;> simp [pure_eq_ok_iff, throw_ne_ok]

theorem getAccount_eq_ok_iff {op : Opcode} {a : Address} :
    r.getAccount op i position = .ok a ↔ ∃ v, r.get? i = some v ∧ v.account? = some a := by
  simp only [getAccount, bind_eq_ok_iff, get_eq_ok_iff]
  refine exists_congr fun v => and_congr_right fun _ => ?_
  cases v.account? <;> simp [pure_eq_ok_iff, throw_ne_ok]

end RegisterFile

namespace Value

/-- A stored number that a positive delta moves to `next`; it does not fall below zero. -/
structure Moves (direction : Direction) (current delta next : Value) : Prop where
  positive : delta.sign? = some .gt
  result : binary direction.op current delta = .ok next
  nonneg : direction = .minus → next.sign? ≠ some .lt

theorem isSome_number? (v : Value) : v.number?.isSome = v.type.isArithmetic := by
  cases v <;> rfl

theorem isArithmetic_of_number? {v : Value} {n : Int} (h : v.number? = some n) :
    v.type.isArithmetic = true := by
  rw [← isSome_number?, h]
  rfl

theorem type_of_ofNumber? {type : DataType} {n : Int} {v : Value}
    (h : ofNumber? type n = some v) : v.type = type := by
  cases type <;> simp [ofNumber?] at h
  case amount => obtain ⟨x, -, rfl⟩ := h; rfl
  case int32 => obtain ⟨x, -, rfl⟩ := h; rfl
  case bigInteger => obtain ⟨-, rfl⟩ := h; rfl

theorem number?_of_ofNumber? {type : DataType} {n : Int} {v : Value}
    (h : ofNumber? type n = some v) : v.number? = some n := by
  cases type <;> simp [ofNumber?] at h
  case amount =>
    obtain ⟨x, hx, rfl⟩ := h
    exact congrArg some (int64?_eq_some_iff.mp hx)
  case int32 =>
    obtain ⟨x, hx, rfl⟩ := h
    exact congrArg some (int32?_eq_some_iff.mp hx)
  case bigInteger =>
    obtain ⟨-, rfl⟩ := h
    rfl

theorem binary_eq_ok_iff {op : BinaryOp} {a b v : Value} :
    binary op a b = .ok v ↔ ∃ x y n, a.number? = some x ∧ b.number? = some y ∧ a.type = b.type ∧
      op.apply x y = .ok n ∧ ofNumber? a.type n = some v := by
  fun_cases binary op a b with
  | case1 x y hy hx htype n hn w hw => simp [hx, hy, ← htype, hn, hw]
  | case2 x y hy hx htype n hn hnone => simp [hx, hy, hn, hnone]
  | case3 x y hy hx htype fault hfault => simp [hx, hy, hfault]
  | case4 x y hy hx htype => simp [htype]
  | case5 hnone => grind

theorem move_eq_ok_iff {op : Opcode} {direction : Direction} {current delta next : Value}
    {position : Nat} :
    move op direction current delta position = .ok next ↔ Moves direction current delta next := by
  have hmoved : (Fault.lift op position (binary direction.op current delta) >>= fun next =>
      if direction = .minus ∧ next.sign? = some .lt then throw (.trap position .underflow)
      else pure next) = .ok next ↔
      binary direction.op current delta = .ok next ∧
        (direction = .minus → next.sign? ≠ some .lt) := by
    simp only [bind_eq_ok_iff, Fault.lift_eq_ok_iff]
    constructor
    · rintro ⟨n, hn, h⟩
      split at h
      · cases h
      · rename_i hfloor
        cases h
        exact ⟨hn, fun hminus hlt => hfloor ⟨hminus, hlt⟩⟩
    · rintro ⟨hn, hfloor⟩
      exact ⟨next, hn, if_neg fun h => hfloor h.1 h.2⟩
  rw [move]
  constructor
  · intro h
    split at h
    · rename_i hsign
      obtain ⟨hresult, hfloor⟩ := hmoved.mp h
      exact ⟨hsign, hresult, hfloor⟩
    · cases h
    · cases h
  · rintro ⟨hsign, hresult, hfloor⟩
    rw [hsign]
    exact hmoved.mpr ⟨hresult, hfloor⟩

theorem convert_eq_ok_iff {v w : Value} {type : DataType} :
    v.convert type = .ok w ↔
      (∃ n : Int64, v = .amount n ∧ type = .bigInteger ∧ .bigInteger n.toInt = w) ∨
        ∃ x : Int64, v = .bigInteger x.toInt ∧ type = .amount ∧ .amount x = w := by
  fun_cases convert v type with
  | case1 n => simp
  | case2 n x hx => simp [← int64?_eq_some_iff.mp hx, Int64.toInt_inj]
  | case3 n hx =>
      have hnone : ∀ x : Int64, x.toInt ≠ n := by
        intro x hn
        rw [int64?_eq_some_iff.mpr hn] at hx
        cases hx
      simp [fun x => (hnone x).symm]
  | case4 hamount hbig => grind

theorem orZero_eq_ok_iff {stored : Option Value} {type : DataType} {v : Value} {position : Nat} :
    orZero stored type position = .ok v ↔ stored.or (zero? type) = some v := by
  cases stored with
  | some w => simp [orZero]
  | none => cases h : zero? type <;> simp [orZero, h]

/-- What holds of a stored value and of the zero of its type holds of what a slot reads as. -/
theorem of_or_zero? {P : Value → Prop} {stored : Option Value} {type : DataType} {v : Value}
    (h : stored.or (zero? type) = some v) (hstored : ∀ w, stored = some w → P w)
    (hzero : ∀ w, zero? type = some w → P w) : P v := by
  rcases Option.or_eq_some_iff.mp h with hv | ⟨-, hv⟩
  · exact hstored v hv
  · exact hzero v hv

end Value

theorem Context.party_eq_ok_iff {context : Context} {party : Party} {a : Address} {position : Nat} :
    context.party party position = .ok a ↔ context.party? party = some a := by
  rw [Context.party]
  cases context.party? party <;> simp

theorem Env.stateVar_eq_ok_iff {env : Env} {index : SlotIndex} {d : VarDecl} {position : Nat} :
    env.stateVar index position = .ok d ↔ env.contract.stateVar? index = some d := by
  rw [Env.stateVar]
  cases env.contract.stateVar? index <;> simp

theorem Env.stateMap_eq_ok_iff {env : Env} {index : SlotIndex} {d : MapDecl} {position : Nat} :
    env.stateMap index position = .ok d ↔ env.contract.stateMap? index = some d := by
  rw [Env.stateMap]
  cases env.contract.stateMap? index <;> simp

theorem Effect.ofLedger_eq_ok_iff {α : Type} {o : LedgerOutcome α} {effect : Effect}
    {position : Nat} :
    Effect.ofLedger o position = .ok effect ↔
      ∃ a, o.answer = .ok a ∧ .updates o.updates = effect := by
  rw [Effect.ofLedger]
  cases o.answer <;> simp

theorem View.lastTokenIndex_eq_ok_iff {v : View} {n : Int32} {position : Nat} :
    v.lastTokenIndex position = .ok n ↔ 0 ≤ n.toInt ∧ n.toInt + 1 = v.tokenCount.toNat := by
  rw [View.lastTokenIndex]
  by_cases hnone : v.tokenCount = 0
  · rw [if_pos hnone, hnone]
    simp only [reduceCtorEq, UInt32.toNat_zero, false_iff]
    omega
  · have hpos : 0 < v.tokenCount.toNat :=
      Nat.pos_of_ne_zero fun hzero => hnone (UInt32.toNat_inj.mp hzero)
    have hlast : int32? (Int.ofNat (v.tokenCount.toNat - 1)) = some n ↔
        0 ≤ n.toInt ∧ n.toInt + 1 = v.tokenCount.toNat := by
      rw [int32?_eq_some_iff, Int.ofNat_eq_natCast]
      omega
    rw [if_neg hnone, ← hlast]
    cases int32? (Int.ofNat (v.tokenCount.toNat - 1)) <;> simp

/-! ### One rule for each instruction -/

namespace Instruction

/-- What an instruction does in a call, when the state and the registers are as given. -/
inductive Yields (env : Env) (view : View) (r : RegisterFile) : Instruction → Effect → Prop where
  | loadParty {party dest a} (ha : env.context.party? party = some a) :
      Yields env view r (.loadParty party dest) (.result dest (.address a))
  | loadTimestamp {dest now} (hnow : env.context.timestamp = some now) :
      Yields env view r (.loadTimestamp dest) (.result dest (.timestamp now))
  | loadLastTokenIndex {dest} {n : Int32}
      (hn : 0 ≤ n.toInt ∧ n.toInt + 1 = view.tokenCount.toNat) :
      Yields env view r (.loadLastTokenIndex dest) (.result dest (.int32 n))
  | assertParty {party account v a} (hv : r.get? account = some v) (ha : v.account? = some a)
      (hparty : env.context.party? party = some a) :
      Yields env view r (.assertParty party account) .nothing
  | assertTrue {cond} (hcond : r.get? cond = some (.boolean true)) :
      Yields env view r (.assertTrue cond) .nothing
  | assertPermitted {cond} (hcond : r.get? cond = some (.boolean true)) :
      Yields env view r (.assertPermitted cond) .nothing
  | assertEqual {a b v} (ha : r.get? a = some v) (hb : r.get? b = some v) :
      Yields env view r (.assertEqual a b) .nothing
  | assertNotExpired {now deadline t limit} (hnow : r.get? now = some (.timestamp t))
      (hdeadline : r.get? deadline = some (.timestamp limit)) (hle : t.toInt ≤ limit.toInt) :
      Yields env view r (.assertNotExpired now deadline) .nothing
  | constant {value dest} : Yields env view r (.constant value dest) (.result dest value)
  | binary {op a b dest va vb v} (ha : r.get? a = some va) (hb : r.get? b = some vb)
      (hv : Value.binary op va vb = .ok v) :
      Yields env view r (.binary op a b dest) (.result dest v)
  | sqrt {a dest n root} (ha : r.get? a = some (.bigInteger n)) (hroot : sqrtInt n = .ok root) :
      Yields env view r (.sqrt a dest) (.result dest (.bigInteger root))
  | convert {value target dest v type w} (htarget : r.get? target = some (.dataType type))
      (hvalue : r.get? value = some v) (hw : v.convert type = .ok w) :
      Yields env view r (.convert value target dest) (.result dest w)
  | not {a dest b} (ha : r.get? a = some (.boolean b)) :
      Yields env view r (.not a dest) (.result dest (.boolean (!b)))
  | compare {relation a b dest va vb order} (ha : r.get? a = some va) (hb : r.get? b = some vb)
      (horder : Value.order va vb = .ok order) :
      Yields env view r (.compare relation a b dest)
        (.result dest (.boolean (relation.test order)))
  | setVar {var value d v} (hd : env.contract.stateVar? var = some d) (hv : r.get? value = some v)
      (htype : v.type = d.type) : Yields env view r (.setVar var value) (.updates [.var var v])
  | getVar {var dest d v} (hd : env.contract.stateVar? var = some d) (hv : view.var var = some v) :
      Yields env view r (.getVar var dest) (.result dest v)
  | getVarOrZero {var dest d v} (hd : env.contract.stateVar? var = some d)
      (hv : (view.var var).or (Value.zero? d.type) = some v) :
      Yields env view r (.getVarOrZero var dest) (.result dest v)
  | moveVar {direction var value d delta current next}
      (hd : env.contract.stateVar? var = some d) (hdelta : r.get? value = some delta)
      (htype : delta.type = d.type)
      (hcurrent : (view.var var).or (Value.zero? d.type) = some current)
      (hnext : Value.Moves direction current delta next) :
      Yields env view r (.moveVar direction var value) (.updates [.var var next])
  | setEntry {map key value d k v} (hd : env.contract.stateMap? map = some d)
      (hk : r.get? key = some k) (hkey : k.type = d.key) (hv : r.get? value = some v)
      (htype : v.type = d.value) :
      Yields env view r (.setEntry map key value) (.updates [.entry map k v])
  | moveEntry {direction map key value d k delta current next}
      (hd : env.contract.stateMap? map = some d) (hk : r.get? key = some k) (hkey : k.type = d.key)
      (hdelta : r.get? value = some delta) (htype : delta.type = d.value)
      (hcurrent : (view.entry map k).or (Value.zero? d.value) = some current)
      (hnext : Value.Moves direction current delta next) :
      Yields env view r (.moveEntry direction map key value) (.updates [.entry map k next])
  | getEntry {map key dest d k v} (hd : env.contract.stateMap? map = some d)
      (hk : r.get? key = some k) (hkey : k.type = d.key) (hv : view.entry map k = some v) :
      Yields env view r (.getEntry map key dest) (.result dest v)
  | getEntryOrZero {map key dest d k v} (hd : env.contract.stateMap? map = some d)
      (hk : r.get? key = some k) (hkey : k.type = d.key)
      (hv : (view.entry map k).or (Value.zero? d.value) = some v) :
      Yields env view r (.getEntryOrZero map key dest) (.result dest v)
  | newToken {max unit description m u text index} (hmax : r.get? max = some (.amount m))
      (hunit : r.get? unit = some (.amount u)) (htext : r.get? description = some (.shortText text))
      (hok : (view.newToken m u text).answer = .ok index) :
      Yields env view r (.newToken max unit description)
        (.updates (view.newToken m u text).updates)
  | deposit {token amount holder n x v a} (htoken : r.get? token = some (.int32 n))
      (hamount : r.get? amount = some (.amount x)) (hv : r.get? holder = some v)
      (ha : v.account? = some a) (hok : (view.deposit n.toInt a x).answer = .ok ()) :
      Yields env view r (.deposit token amount holder)
        (.updates (view.deposit n.toInt a x).updates)
  | transfer {source token amount target n x v a w b} (hv : r.get? source = some v)
      (ha : v.account? = some a) (htoken : r.get? token = some (.int32 n))
      (hamount : r.get? amount = some (.amount x)) (hw : r.get? target = some w)
      (hb : w.account? = some b) (hok : (view.transfer n.toInt a b x).answer = .ok ()) :
      Yields env view r (.transfer source token amount target)
        (.updates (view.transfer n.toInt a b x).updates)
  | balance {token holder dest n v a x} (htoken : r.get? token = some (.int32 n))
      (hv : r.get? holder = some v) (ha : v.account? = some a)
      (hx : view.balanceOf n.toInt a = .ok x) :
      Yields env view r (.balance token holder dest) (.result dest (.amount x))

variable {env : Env} {view : View} {r : RegisterFile} {i : Instruction} {effect : Effect}
  {position : Nat}

/-- An instruction succeeds by its rule and in no other way. -/
theorem eval_eq_ok_iff :
    i.eval env position view r = .ok effect ↔ Yields env view r i effect := by
  cases i <;> simp only [eval, bind_eq_ok_iff, pure_eq_ok_iff, ite_throw_eq_ok_iff,
    Context.party_eq_ok_iff, Env.stateVar_eq_ok_iff, Env.stateMap_eq_ok_iff, Fault.lift_eq_ok_iff,
    Effect.ofLedger_eq_ok_iff, Value.move_eq_ok_iff, Value.orZero_eq_ok_iff,
    View.lastTokenIndex_eq_ok_iff, RegisterFile.get_eq_ok_iff,
    RegisterFile.getTyped_eq_ok_iff, RegisterFile.getAmount_eq_ok_iff,
    RegisterFile.getInt32_eq_ok_iff, RegisterFile.getBool_eq_ok_iff,
    RegisterFile.getTimestamp_eq_ok_iff, RegisterFile.getText_eq_ok_iff,
    RegisterFile.getBigInteger_eq_ok_iff, RegisterFile.getDataType_eq_ok_iff,
    RegisterFile.getAccount_eq_ok_iff]
  -- what a rule asks for is what the instruction tests, so only the other direction has cases
  all_goals refine ⟨fun h => ?_, fun h => by cases h; grind [pure_eq_ok_iff]⟩
  case loadParty party dest =>
    obtain ⟨a, ha, rfl⟩ := h
    exact .loadParty ha
  case loadTimestamp dest =>
    cases hnow : env.context.timestamp with
    | none => simp [hnow, throw_ne_ok] at h
    | some now =>
        obtain rfl : Effect.result dest (.timestamp now) = effect := by
          simpa [hnow, pure_eq_ok_iff] using h
        exact .loadTimestamp hnow
  case loadLastTokenIndex dest =>
    obtain ⟨n, hn, rfl⟩ := h
    exact .loadLastTokenIndex hn
  case assertParty party account =>
    obtain ⟨a, ⟨v, hv, ha⟩, _, hparty, rfl, rfl⟩ := h
    exact .assertParty hv ha hparty
  case assertTrue cond =>
    obtain ⟨_, hcond, rfl, rfl⟩ := h
    exact .assertTrue hcond
  case assertPermitted cond =>
    obtain ⟨_, hcond, rfl, rfl⟩ := h
    exact .assertPermitted hcond
  case assertEqual a b =>
    obtain ⟨v, ha, _, hb, rfl, rfl⟩ := h
    exact .assertEqual ha hb
  case assertNotExpired now deadline =>
    obtain ⟨t, hnow, limit, hdeadline, hle, rfl⟩ := h
    exact .assertNotExpired hnow hdeadline hle
  case constant value dest =>
    subst h
    exact .constant
  case binary op a b dest =>
    obtain ⟨va, ha, vb, hb, v, hv, rfl⟩ := h
    exact .binary ha hb hv
  case sqrt a dest =>
    obtain ⟨n, ha, root, hroot, rfl⟩ := h
    exact .sqrt ha hroot
  case convert value target dest =>
    obtain ⟨type, htarget, v, hvalue, h⟩ := h
    cases hw : v.convert type with
    | error e => simp [hw, throw_ne_ok] at h
    | ok w =>
        obtain rfl : Effect.result dest w = effect := by simpa [hw, pure_eq_ok_iff] using h
        exact .convert htarget hvalue hw
  case not a dest =>
    obtain ⟨b, ha, rfl⟩ := h
    exact .not ha
  case compare relation a b dest =>
    obtain ⟨va, ha, vb, hb, order, horder, rfl⟩ := h
    exact .compare ha hb horder
  case setVar var value =>
    obtain ⟨d, hd, v, ⟨hv, htype⟩, rfl⟩ := h
    exact .setVar hd hv htype
  case getVar var dest =>
    obtain ⟨d, hd, h⟩ := h
    cases hv : view.var var with
    | none => simp [hv, throw_ne_ok] at h
    | some v =>
        obtain rfl : Effect.result dest v = effect := by simpa [hv, pure_eq_ok_iff] using h
        exact .getVar hd hv
  case getVarOrZero var dest =>
    obtain ⟨d, hd, v, hv, rfl⟩ := h
    exact .getVarOrZero hd hv
  case moveVar direction var value =>
    obtain ⟨d, hd, delta, ⟨hdelta, htype⟩, current, hcurrent, next, hnext, rfl⟩ := h
    exact .moveVar hd hdelta htype hcurrent hnext
  case setEntry map key value =>
    obtain ⟨d, hd, k, ⟨hk, hkey⟩, v, ⟨hv, htype⟩, rfl⟩ := h
    exact .setEntry hd hk hkey hv htype
  case moveEntry direction map key value =>
    obtain ⟨d, hd, k, ⟨hk, hkey⟩, delta, ⟨hdelta, htype⟩, current, hcurrent, next, hnext, rfl⟩ := h
    exact .moveEntry hd hk hkey hdelta htype hcurrent hnext
  case getEntry map key dest =>
    obtain ⟨d, hd, k, ⟨hk, hkey⟩, h⟩ := h
    cases hv : view.entry map k with
    | none => simp [hv, throw_ne_ok] at h
    | some v =>
        obtain rfl : Effect.result dest v = effect := by simpa [hv, pure_eq_ok_iff] using h
        exact .getEntry hd hk hkey hv
  case getEntryOrZero map key dest =>
    obtain ⟨d, hd, k, ⟨hk, hkey⟩, v, hv, rfl⟩ := h
    exact .getEntryOrZero hd hk hkey hv
  case newToken max unit description =>
    obtain ⟨m, hmax, u, hunit, text, htext, index, hok, rfl⟩ := h
    exact .newToken hmax hunit htext hok
  case deposit token amount holder =>
    obtain ⟨n, htoken, x, hamount, a, ⟨v, hv, ha⟩, _, hok, rfl⟩ := h
    exact .deposit htoken hamount hv ha hok
  case transfer source token amount target =>
    obtain ⟨a, ⟨v, hv, ha⟩, n, htoken, x, hamount, b, ⟨w, hw, hb⟩, _, hok, rfl⟩ := h
    exact .transfer hv ha htoken hamount hw hb hok
  case balance token holder dest =>
    obtain ⟨n, htoken, a, ⟨v, hv, ha⟩, h⟩ := h
    cases hx : view.balanceOf n.toInt a with
    | error e => simp [hx, throw_ne_ok] at h
    | ok x =>
        obtain rfl : Effect.result dest (.amount x) = effect := by
          simpa [hx, pure_eq_ok_iff] using h
        exact .balance htoken hv ha hx

/-- Results go to the register that the code names. -/
theorem Yields.dest?_eq (h : i.Yields env view r effect) :
    i.dest? = match effect with
      | .result dest _ => some dest
      | .updates _ => none := by
  cases h <;> rfl

end Instruction

/-! ### Steps -/

namespace Machine

/-- A step puts a result into a register, or it adds updates to the overlay. -/
inductive Steps (env : Env) (m : Machine) (i : Instruction) : Machine → Prop where
  | result {dest v} (h : i.Yields env m.overlay.view m.registers (.result dest v))
      (hdest : dest.toNat < m.registers.capacity) :
      Steps env m i { m with registers := m.registers.write dest v }
  | updates {us} (h : i.Yields env m.overlay.view m.registers (.updates us)) :
      Steps env m i { m with overlay := m.overlay.record us }

variable {env : Env} {position : Nat} {m : Machine} {i : Instruction}

/-- Where an instruction stands does not matter to whether it succeeds. -/
theorem step_eq_ok_iff {next : Machine} :
    m.step env position i = .ok next ↔ m.Steps env i next := by
  rw [step, bind_eq_ok_iff]
  constructor
  · rintro ⟨effect, heval, h⟩
    have hyields := Instruction.eval_eq_ok_iff.mp heval
    cases effect with
    | result dest v =>
        obtain ⟨registers, hset, h⟩ := bind_eq_ok_iff.mp h
        obtain ⟨hdest, rfl⟩ := RegisterFile.set_eq_ok_iff.mp hset
        cases h
        exact .result hyields hdest
    | updates us =>
        cases h
        exact .updates hyields
  · intro h
    cases h with
    | @result dest v h hdest =>
        have hset : m.registers.set dest v position = .ok (m.registers.write dest v) :=
          RegisterFile.set_eq_ok_iff.mpr ⟨hdest, rfl⟩
        exact ⟨_, Instruction.eval_eq_ok_iff.mpr h, bind_eq_ok_iff.mpr ⟨_, hset, rfl⟩⟩
    | updates h => exact ⟨_, Instruction.eval_eq_ok_iff.mpr h, rfl⟩

theorem runFrom_cons_eq_ok_iff {last : Machine} {rest : List Instruction} :
    m.runFrom env position (i :: rest) = .ok last ↔
      ∃ next, m.Steps env i next ∧ next.runFrom env (position + 1) rest = .ok last := by
  simp only [runFrom, ← @step_eq_ok_iff env position]
  cases m.step env position i <;> simp

end Machine

end ContractMachine
