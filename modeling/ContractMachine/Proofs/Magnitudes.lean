import ContractMachine.Proofs.Amounts
import ContractMachine.Proofs.Effects

/-! Magnitudes of big integers. The code of a body bounds the binary digits of every big integer
that it computes from amounts and literals, whatever the state and the arguments are. Where the
bounds stay within what the wire format carries, no operation on big integers overflows. -/

namespace ContractMachine

/-! ### Estimates -/

/-- What the code alone tells of the value in a register. -/
inductive Estimate where
  /-- It is this type. -/
  | type (t : DataType)
  /-- It is a big integer with at most so many binary digits. -/
  | digits (k : Nat)
  deriving DecidableEq

def Estimate.Fits : Estimate → Value → Prop
  | type t, v => v = .dataType t
  | digits k, v => ∃ n, v = .bigInteger n ∧ BitBound n k

/-- How many binary digits a result can have, from those of the operands. -/
def BinaryOp.digits (op : BinaryOp) (i j : Nat) : Nat :=
  match op with
  | add | minus => Nat.max i j + 1
  | multiply => i + j
  | divide => i
  | min | max => Nat.max i j

theorem BitBound.exact {x y : Int} {i j : Nat} (hx : BitBound x i) (hy : BitBound y j)
    (op : BinaryOp) : BitBound (op.exact x y) (op.digits i j) := by
  cases op with
  | add => exact inferInstanceAs (BitBound (x + y) _)
  | minus => exact inferInstanceAs (BitBound (x - y) _)
  | multiply => exact inferInstanceAs (BitBound (x * y) _)
  | divide => exact inferInstanceAs (BitBound (x.tdiv y) i)
  | min => exact inferInstanceAs (BitBound (BinaryOp.min.exact x y) (Nat.max i j))
  | max =>
      have hmax : BitBound (BinaryOp.max.exact x y) (Nat.max j i) := inferInstance
      exact hmax.mono (Nat.max_comm j i).le

/-- A result that the wire format carries is missing only for a division by zero. -/
theorem Value.binary_bigInteger_of_encodable {op : BinaryOp} {x y : Int}
    (h : (bigInteger (op.exact x y)).encodable = true) :
    binary op (.bigInteger x) (.bigInteger y) = .error .divisionByZero ∨
      binary op (.bigInteger x) (.bigInteger y) = .ok (.bigInteger (op.exact x y)) := by
  by_cases hzero : op = .divide ∧ y = 0
  · left
    simp [binary, number?, type, BinaryOp.apply, hzero]
  · right
    simp [binary, number?, type, BinaryOp.apply, ofNumber?, hzero, h]

/-- The registers that the code has written, with what is known of them. -/
abbrev Estimates := OrderedMap Register (Option Estimate)

def Estimates.at? (known : Estimates) (r : Register) : Option Estimate := (known.get? r).join

/-- The registers hold what is known of them. -/
def Estimates.Describes (known : Estimates) (registers : RegisterFile) : Prop :=
  ∀ r e, known.at? r = some e → ∃ v, registers.get? r = some v ∧ e.Fits v

namespace Instruction

/-- What the code tells of the result of an instruction. An amount has 64 binary digits. -/
def estimate? (known : Estimates) : Instruction → Option Estimate
  | constant (.dataType t) _ => some (.type t)
  | constant (.bigInteger n) _ => some (.digits (n.natAbs.log2 + 1))
  | convert _ target _ =>
    if known.at? target = some (.type .bigInteger) then some (.digits 64) else none
  | binary op a b _ =>
    match known.at? a, known.at? b with
    | some (.digits i), some (.digits j) => some (.digits (op.digits i j))
    | _, _ => none
  | _ => none

def estimatesAfter (known : Estimates) (i : Instruction) : Estimates :=
  match i.dest? with
  | some dest => known.insert dest (i.estimate? known)
  | none => known

/-- Whether the instruction, if it is a binary operation, is one on big integers whose result the
wire format carries for certain. -/
def isSized (known : Estimates) (i : Instruction) : Bool :=
  match i with
  | binary _ _ _ _ =>
    match i.estimate? known with
    | some (.digits k) => k ≤ 2047
    | _ => false
  | _ => true

/-- Every binary operation of the code is one on big integers that are short enough. -/
def allSized : Estimates → List Instruction → Bool
  | _, [] => true
  | known, i :: rest => i.isSized known && allSized (i.estimatesAfter known) rest

theorem estimate?_binary_eq_some_iff {known : Estimates} {op : BinaryOp} {a b dest : Register}
    {e : Estimate} :
    (binary op a b dest).estimate? known = some e ↔ ∃ i j, known.at? a = some (.digits i) ∧
      known.at? b = some (.digits j) ∧ e = .digits (op.digits i j) := by
  rw [estimate?]
  split
  · rename_i i j ha hb
    simp [ha, hb, eq_comm]
  · rename_i hnone
    simp only [false_iff, reduceCtorEq]
    rintro ⟨i, j, ha, hb, -⟩
    exact hnone i j ha hb

/-- Where all operations are short enough, each is so by what is known where it stands. -/
theorem isSized_of_allSized {first rest : List Instruction} {i : Instruction} {known : Estimates}
    (h : allSized known (first ++ i :: rest) = true) :
    i.isSized (first.foldl estimatesAfter known) = true := by
  induction first generalizing known with
  | nil =>
      rw [List.nil_append, allSized, Bool.and_eq_true] at h
      exact h.1
  | cons j first ih =>
      rw [List.cons_append, allSized, Bool.and_eq_true] at h
      exact ih h.2

end Instruction

namespace Estimates.Describes

variable {env : Env} {known : Estimates} {registers : RegisterFile} {m next : Machine}
  {i : Instruction}

/-- Nothing is known of registers that the code has not written. -/
theorem empty (registers : RegisterFile) : Describes ∅ registers := by
  intro r e h
  cases h

theorem bigIntegers (h : known.Describes registers) {op : BinaryOp} {a b dest : Register}
    {e : Estimate} (he : (Instruction.binary op a b dest).estimate? known = some e) :
    ∃ x y, registers.get? a = some (.bigInteger x) ∧ registers.get? b = some (.bigInteger y) ∧
      e.Fits (.bigInteger (op.exact x y)) := by
  obtain ⟨i, j, ha, hb, rfl⟩ := Instruction.estimate?_binary_eq_some_iff.mp he
  obtain ⟨_, hgetA, x, rfl, hx⟩ := h a _ ha
  obtain ⟨_, hgetB, y, rfl, hy⟩ := h b _ hb
  exact ⟨x, y, hgetA, hgetB, _, rfl, hx.exact hy op⟩

/-- A result is as the code tells. -/
theorem fits_of_yields (h : known.Describes registers) {view : View} {dest : Register} {v : Value}
    {e : Estimate} (hyields : i.Yields env view registers (.result dest v))
    (he : i.estimate? known = some e) : e.Fits v := by
  cases hyields with
  | constant =>
      cases v with
      | dataType t =>
          cases he
          rfl
      | bigInteger n =>
          cases he
          exact ⟨n, rfl, ⟨Nat.lt_log2_self⟩⟩
      | _ => cases he
  | binary ha hb hv =>
      obtain ⟨x, y, hgetA, hgetB, hfits⟩ := h.bigIntegers he
      cases ha.symm.trans hgetA
      cases hb.symm.trans hgetB
      have hexact : Succeeds (Value.binary _ (.bigInteger x) (.bigInteger y)) (· = v) :=
        ⟨v, hv, rfl⟩
      rw [Value.succeeds_binary_bigInteger] at hexact
      exact hexact.2.2 ▸ hfits
  | @convert value target dest v type w htarget hvalue hw =>
      rw [Instruction.estimate?] at he
      split at he
      · rename_i hknown
        cases he
        obtain ⟨_, hget, rfl⟩ := h target _ hknown
        cases htarget.symm.trans hget
        rcases Value.convert_eq_ok_iff.mp hw with ⟨n, -, -, rfl⟩ | ⟨_, -, htype, -⟩
        · exact ⟨_, rfl, inferInstance⟩
        · cases htype
      · cases he
  | _ => cases he

theorem step (h : known.Describes m.registers) (hstep : m.Steps env i next) :
    (i.estimatesAfter known).Describes next.registers := by
  cases hstep with
  | updates hyields =>
      rw [Instruction.estimatesAfter, hyields.dest?_eq]
      exact h
  | @result dest v hyields hdest =>
      rw [Instruction.estimatesAfter, hyields.dest?_eq]
      intro r e he
      rw [at?, OrderedMap.get?_insert] at he
      rw [RegisterFile.get?_write hdest]
      split at he
      · rename_i hr
        rw [if_pos hr]
        exact ⟨v, rfl, h.fits_of_yields hyields he⟩
      · rename_i hr
        rw [if_neg hr]
        exact h r e he

theorem runFrom {code : List Instruction} {start : Nat} (h : known.Describes m.registers)
    (hrun : Machine.runFrom env start code m = .ok next) :
    Describes (code.foldl Instruction.estimatesAfter known) next.registers := by
  induction code generalizing known m start with
  | nil =>
      cases hrun
      exact h
  | cons i rest ih =>
      obtain ⟨middle, hstep, hrest⟩ := Machine.runFrom_cons_eq_ok_iff.mp hrun
      exact ih (h.step hstep) hrest

/-- Operations on big integers whose result is short enough do not overflow. -/
theorem step_ne_overflow (h : known.Describes m.registers) {op : BinaryOp} {a b dest : Register}
    {position : Nat}
    (hsized : (Instruction.binary op a b dest).isSized known = true) :
    m.step env position (.binary op a b dest) ≠ .error (.trap position .overflow) := by
  rw [Instruction.isSized] at hsized
  split at hsized
  · rename_i k he
    obtain ⟨x, y, ha, hb, n, hn, hbound⟩ := h.bigIntegers he
    cases hn
    have hfits : (Value.bigInteger (op.exact x y)).encodable = true :=
      encodable_of_bitBound (of_decide_eq_true hsized)
    have hgetA : m.registers.get a position = .ok (.bigInteger x) :=
      RegisterFile.get_eq_ok_iff.mpr ha
    have hgetB : m.registers.get b position = .ok (.bigInteger y) :=
      RegisterFile.get_eq_ok_iff.mpr hb
    rcases Value.binary_bigInteger_of_encodable hfits with hbinary | hbinary
    · simp [Machine.step, Instruction.eval, hgetA, hgetB, hbinary, Fault.lift, Fault.error, bind,
        Except.bind]
    · by_cases hdest : dest.toNat < m.registers.capacity <;>
        simp [Machine.step, Instruction.eval, hgetA, hgetB, hbinary, Fault.lift, bind, Except.bind,
          pure, Except.pure, RegisterFile.set, hdest]
  · cases hsized

end Estimates.Describes

namespace Machine

/-- Where every operation is on big integers that are short enough, a run that overflows does so
outside of them. -/
theorem overflow_not_binary {env : Env} {code : List Instruction} {m : Machine} {position : Nat}
    (hsized : Instruction.allSized ∅ code = true)
    (h : runFrom env 0 code m = .error (.trap position .overflow)) (op : BinaryOp)
    (a b dest : Register) : code[position]? ≠ some (.binary op a b dest) := by
  obtain ⟨first, i, rest, next, rfl, rfl, hfirst, hstep⟩ := exists_stop_of_trap h
  intro hi
  obtain rfl : i = .binary op a b dest := by simpa using hi
  have hknown := (Estimates.Describes.empty m.registers).runFrom hfirst
  exact hknown.step_ne_overflow (Instruction.isSized_of_allSized hsized) hstep

end Machine

end ContractMachine
