import ContractMachine.Proofs.Calls
import ContractMachine.Proofs.State.Grants
import ContractMachine.Proofs.State.Operations

/-! The writes of a call can be read off its code. Each instruction that succeeds writes the regions
of the state that it names and no others, and a body that completes has performed all of its
instructions, so what is pending at its end is what they name together. -/

namespace ContractMachine

/-! ### Regions of the state -/

/-- A state variable, a state map, or one of the tables of the token ledger. -/
inductive Region where
  | var (index : SlotIndex)
  | map (index : SlotIndex)
  | tokens
  | tokenCount
  | balances
  deriving DecidableEq

def Update.region : Update → Region
  | .var index _ => .var index
  | .entry index _ _ => .map index
  | .token _ _ => .tokens
  | .tokenCount _ => .tokenCount
  | .balance _ _ _ => .balances

/-- The regions that an effect writes, in the order of the writes. -/
def Effect.regions : Effect → List Region
  | .result _ _ => []
  | .updates us => us.map Update.region

/-- The operations that write to the state. -/
def Opcode.writing : List Opcode :=
  [.setVar, .addVar, .minusVar, .setEntry, .addEntry, .minusEntry, .newToken, .deposit, .transfer]

namespace WriteSet

/-- Something in the region is to be written. -/
def Touches (w : WriteSet) : Region → Prop
  | .var index => index ∈ w.vars.keys
  | .map index => ∃ key, ⟨index, key⟩ ∈ w.entries.keys
  | .tokens => w.tokens.keys ≠ []
  | .tokenCount => w.tokenCount.isSome = true
  | .balances => w.balances.keys ≠ []

theorem not_touches_empty (r : Region) : ¬({} : WriteSet).Touches r := by
  have hkeys {κ ν : Type} [SortKey κ] : (∅ : OrderedMap κ ν).keys = [] := rfl
  cases r <;> simp [Touches, hkeys]

theorem eq_empty_of_not_touches {w : WriteSet} (h : ∀ r, ¬w.Touches r) : w = {} := by
  obtain ⟨vars, entries, tokens, balances, tokenCount⟩ := w
  have hvars : vars = ∅ := OrderedMap.eq_empty_of_keys fun index => h (.var index)
  have hentries : entries = ∅ :=
    OrderedMap.eq_empty_of_keys fun ⟨map, key⟩ hkey => h (.map map) ⟨key, hkey⟩
  have htokens : tokens = ∅ :=
    OrderedMap.eq_empty_of_keys fun _ hindex => h .tokens (List.ne_nil_of_mem hindex)
  have hbalances : balances = ∅ :=
    OrderedMap.eq_empty_of_keys fun _ hkey => h .balances (List.ne_nil_of_mem hkey)
  have hcount : tokenCount = none := by
    simpa [Touches] using h .tokenCount
  rw [hvars, hentries, htokens, hbalances, hcount]

/-- A write touches its own region, and all that was touched before is touched still. -/
theorem touches_record {w : WriteSet} {u : Update} {r : Region} :
    (w.record u).Touches r ↔ r = u.region ∨ w.Touches r := by
  cases u <;> cases r <;>
    simp [record, Touches, Update.region, OrderedMap.mem_keys_insert,
      OrderedMap.keys_insert_ne_nil, exists_or]

theorem touches_foldl_record {w : WriteSet} {us : List Update} {r : Region} :
    (us.foldl record w).Touches r ↔ r ∈ us.map Update.region ∨ w.Touches r := by
  induction us generalizing w with
  | nil => simp
  | cons u us ih =>
      rw [List.foldl_cons, ih, touches_record, List.map_cons, List.mem_cons]
      tauto

end WriteSet

namespace Instruction

/-- The regions that the instruction writes, in the order of the writes. A transfer writes the
balances of both sides. -/
def regions (i : Instruction) : List Region :=
  match i.opcode with
  | .setVar | .addVar | .minusVar => i.stateVar?.toList.map .var
  | .setEntry | .addEntry | .minusEntry => i.stateMap?.toList.map .map
  | .newToken => [.tokens, .tokenCount]
  | .deposit => [.tokens, .balances]
  | .transfer => [.balances, .balances]
  | _ => []

variable {i : Instruction}

theorem var_mem_regions_iff {index : SlotIndex} :
    .var index ∈ i.regions ↔
      i.opcode ∈ [.setVar, .addVar, .minusVar] ∧ i.stateVar? = some index := by
  rw [regions]
  cases i.opcode <;> simp

theorem map_mem_regions_iff {index : SlotIndex} :
    .map index ∈ i.regions ↔
      i.opcode ∈ [.setEntry, .addEntry, .minusEntry] ∧ i.stateMap? = some index := by
  rw [regions]
  cases i.opcode <;> simp

theorem tokens_mem_regions_iff :
    .tokens ∈ i.regions ↔ i.opcode = .newToken ∨ i.opcode = .deposit := by
  rw [regions]
  cases i.opcode <;> simp

theorem balances_mem_regions_iff :
    .balances ∈ i.regions ↔ i.opcode = .deposit ∨ i.opcode = .transfer := by
  rw [regions]
  cases i.opcode <;> simp

theorem count_tokenCount_regions :
    i.regions.count .tokenCount = [i.opcode].count .newToken := by
  rw [regions]
  cases i.opcode <;> simp [List.count_eq_zero]

theorem count_flatMap_regions (code : List Instruction) :
    (code.flatMap regions).count .tokenCount =
      (code.map opcode).count .newToken := by
  induction code with
  | nil => rfl
  | cons i rest ih =>
      rw [List.flatMap_cons, List.count_append, ih, count_tokenCount_regions,
        ← List.count_append]
      rfl

theorem regions_eq_nil_of_opcode (h : i.opcode ∉ Opcode.writing) : i.regions = [] := by
  rw [regions]
  revert h
  cases i.opcode <;> simp [Opcode.writing]

variable {env : Env} {view : View} {r : RegisterFile} {effect : Effect}

/-- An instruction that succeeds writes what it names. -/
theorem Yields.regions_eq (h : i.Yields env view r effect) : effect.regions = i.regions := by
  cases h with
  | @loadParty party => cases party <;> rfl
  | @assertParty party => cases party <;> rfl
  | @binary op => cases op <;> rfl
  | @compare relation => cases relation <;> rfl
  | @moveVar direction => cases direction <;> rfl
  | @moveEntry direction => cases direction <;> rfl
  | newToken hmax hunit htext hok =>
      have hgrants := LedgerOutcome.grants_of_answer hok
      rw [View.grants_newToken] at hgrants
      obtain ⟨-, -, -, hupdates⟩ := hgrants
      rw [← hupdates]
      rfl
  | deposit htoken hamount hv ha hok =>
      have hgrants := LedgerOutcome.grants_of_answer hok
      rw [View.grants_deposit] at hgrants
      obtain ⟨-, _, -, _, -, -, _, -, hupdates⟩ := hgrants
      rw [← hupdates]
      rfl
  | transfer hv ha htoken hamount hw hb hok =>
      have hgrants := LedgerOutcome.grants_of_answer hok
      rw [View.grants_transfer] at hgrants
      obtain ⟨-, _, -, _, -, -, _, -, hupdates⟩ := hgrants
      rw [← hupdates]
      rfl
  | _ => rfl

end Instruction

/-! ### Runs -/

theorem View.Writes.tokenCount {v : View} {us : List Update} (h : v.Writes us) :
    (us.foldl View.update v).tokenCount.toNat =
      v.tokenCount.toNat + (us.map Update.region).count .tokenCount := by
  cases h with
  | ledger h =>
      cases h with
      | newToken hdescription hmax hunit hcount => exact toNat_succ_tokenIndex hcount
      | _ => rfl
  | _ => rfl

/-- From one overlay to the next, exactly these regions are written. -/
structure Overlay.Extends (o next : Overlay) (regions : List Region) : Prop where
  touches : ∀ r, next.writes.Touches r ↔ r ∈ regions ∨ o.writes.Touches r
  tokenCount : next.view.tokenCount.toNat = o.view.tokenCount.toNat + regions.count .tokenCount

namespace Overlay.Extends

variable {o next last : Overlay} {first second : List Region}

theorem refl (o : Overlay) : o.Extends o [] := by
  refine ⟨fun r => ?_, rfl⟩
  simp

theorem trans (h : o.Extends next first) (h' : next.Extends last second) :
    o.Extends last (first ++ second) where
  touches r := by
    rw [h'.touches, h.touches, List.mem_append]
    tauto
  tokenCount := by
    rw [h'.tokenCount, h.tokenCount, List.count_append, Nat.add_assoc]

/-- Above a fresh base, only what was written is pending. -/
theorem touches_iff {base : View} {o : Overlay} {regions : List Region}
    (h : (Overlay.mk base {}).Extends o regions) (r : Region) :
    o.writes.Touches r ↔ r ∈ regions :=
  (h.touches r).trans (or_iff_left (WriteSet.not_touches_empty r))

/-- The number of tokens is pending only if there are new ones, and it counts them all. -/
theorem map_tokenCount {base : View} {o : Overlay} {regions : List Region}
    (h : (Overlay.mk base {}).Extends o regions) :
    o.writes.tokenCount.map UInt32.toNat =
      if .tokenCount ∈ regions then
        some (base.tokenCount.toNat + regions.count .tokenCount)
      else none := by
  have hmem : o.writes.tokenCount.isSome = true ↔ .tokenCount ∈ regions :=
    h.touches_iff .tokenCount
  have hnumber : o.view.tokenCount.toNat =
      base.tokenCount.toNat + regions.count .tokenCount := h.tokenCount
  cases hcount : o.writes.tokenCount with
  | none =>
      rw [hcount] at hmem
      rw [if_neg (mt hmem.mpr nofun)]
      rfl
  | some n =>
      rw [hcount] at hmem
      rw [if_pos (hmem.mp rfl), ← hnumber, Overlay.view, hcount]
      rfl

end Overlay.Extends

namespace Machine

variable {env : Env} {m next last : Machine} {i : Instruction}

theorem Steps.extends_regions (h : m.Steps env i next) :
    m.overlay.Extends next.overlay i.regions := by
  cases h with
  | result hyields hdest =>
      rw [← hyields.regions_eq]
      exact .refl m.overlay
  | updates hyields =>
      rw [← hyields.regions_eq]
      refine ⟨fun r => WriteSet.touches_foldl_record, ?_⟩
      rw [Overlay.view_record]
      exact hyields.writes.tokenCount

theorem extends_of_runFrom {position : Nat} {code : List Instruction}
    (h : m.runFrom env position code = .ok last) :
    m.overlay.Extends last.overlay (code.flatMap Instruction.regions) := by
  induction code generalizing m position with
  | nil =>
      obtain rfl : m = last := Except.ok.inj h
      exact .refl m.overlay
  | cons i rest ih =>
      obtain ⟨next, hstep, hrest⟩ := runFrom_cons_eq_ok_iff.mp h
      exact hstep.extends_regions.trans (ih hrest)

end Machine

namespace Function

variable {f : Function} {env : Env} {capacity : Nat} {base : View} {args : List Value} {m : Machine}

theorem extends_of_run (h : f.run env capacity base args = .ok m) :
    (Overlay.mk base {}).Extends m.overlay (f.code.flatMap Instruction.regions) := by
  obtain ⟨-, -, hbody⟩ := run_eq_ok h
  exact Machine.extends_of_runFrom hbody

theorem touches_iff_of_run (h : f.run env capacity base args = .ok m) (r : Region) :
    m.overlay.writes.Touches r ↔ ∃ i ∈ f.code, r ∈ i.regions := by
  rw [← List.mem_flatMap]
  exact (extends_of_run h).touches_iff r

/-- Code without an operation that writes leaves nothing to be written. -/
theorem writes_eq_empty_of_run (h : f.run env capacity base args = .ok m)
    (hreads : ∀ op ∈ f.code.map Instruction.opcode, op ∉ Opcode.writing) :
    m.overlay.writes = {} := by
  refine WriteSet.eq_empty_of_not_touches fun r hr => ?_
  obtain ⟨i, hi, hmem⟩ := (touches_iff_of_run h r).mp hr
  have hop : i.opcode ∉ Opcode.writing := hreads _ (List.mem_map_of_mem hi)
  rw [Instruction.regions_eq_nil_of_opcode hop] at hmem
  cases hmem

end Function

/-- The writes of a run that completes are those that its code names. The variables and maps are
those of the instructions that set or move them; the number of tokens grows by the tokens that the
code defines; tokens and balances are written if there is an instruction that does so. So code that
only loads, asserts, computes and reads commits nothing. -/
theorem Function.writes_what_code_names {f : Function} {env : Env} {capacity : Nat} {base : View}
    {args : List Value} {m : Machine} (h : f.run env capacity base args = .ok m) :
    let w := m.overlay.writes
    let ops := f.code.map Instruction.opcode
    (∀ index, index ∈ w.vars.keys ↔
      ∃ i ∈ f.code, i.opcode ∈ [.setVar, .addVar, .minusVar] ∧ i.stateVar? = some index) ∧
    (∀ map, (∃ key, ⟨map, key⟩ ∈ w.entries.keys) ↔
      ∃ i ∈ f.code, i.opcode ∈ [.setEntry, .addEntry, .minusEntry] ∧ i.stateMap? = some map) ∧
    w.tokenCount.map UInt32.toNat =
      (if .newToken ∈ ops then some (base.tokenCount.toNat + ops.count .newToken) else none) ∧
    (w.tokens.keys ≠ [] ↔ .newToken ∈ ops ∨ .deposit ∈ ops) ∧
    (w.balances.keys ≠ [] ↔ .deposit ∈ ops ∨ .transfer ∈ ops) ∧
    ((∀ op ∈ ops, op ∉ Opcode.writing) → w = {} ∧ ∀ store : Store, store.apply w = store) := by
  intro w ops
  have htouches : ∀ r, w.Touches r ↔ ∃ i ∈ f.code, r ∈ i.regions := touches_iff_of_run h
  refine ⟨?_, ?_, ?_, ?_, ?_, ?_⟩
  · intro index
    simp only [← Instruction.var_mem_regions_iff]
    exact htouches (.var index)
  · intro map
    simp only [← Instruction.map_mem_regions_iff]
    exact htouches (.map map)
  · have hpending := (extends_of_run h).map_tokenCount
    simpa only [← List.count_pos_iff, Instruction.count_flatMap_regions] using hpending
  · refine (htouches .tokens).trans ?_
    simp only [Instruction.tokens_mem_regions_iff, ops, List.mem_map, and_or_left, exists_or]
  · refine (htouches .balances).trans ?_
    simp only [Instruction.balances_mem_regions_iff, ops, List.mem_map, and_or_left, exists_or]
  · intro hreads
    have hempty : w = {} := writes_eq_empty_of_run h hreads
    refine ⟨hempty, fun store => ?_⟩
    rw [hempty]
    rfl

/-- Defines a token, issues some of it, and books the amount in a variable and in a map. -/
def Function.bookIssue : Function where
  id := 0
  kind := .callable
  returns := []
  params := [.amount, .shortText, .address]
  code :=
    [.newToken 0 0 1, .loadLastTokenIndex 3, .deposit 3 0 2, .getVarOrZero 6 4, .setVar 5 4,
      .moveVar .add 5 0, .setEntry 7 2 0]

/-- Reads what is booked. -/
def Function.readBooks : Function :=
  { bookIssue with code := [.getVarOrZero 6 3, .getEntryOrZero 7 2 4] }

/-- A contract that declares the slots of the booking. -/
def Contract.bookkeeping : Contract where
  language := languageId
  version := 1
  triggers := []
  functions := [.bookIssue, .readBooks]
  stateVars := [⟨5, .amount⟩, ⟨6, .amount⟩]
  stateMaps := [⟨7, .address, .amount⟩]
  textual := none

/-- The booking of a second token: the variable that it only reads is not among the writes. Where
nothing is booked, reading finds zeros and does not keep them. -/
theorem Function.bookIssue_writes :
    let gold : Store := { tokens := [⟨100, 1, "gold", 0⟩] }
    let holder : Address := ⟨List.replicate 26 1, rfl⟩
    let args : List Value := [.amount 20, .shortText "silver", .address holder]
    (∃ m, bookIssue.run ⟨.bookkeeping, {}⟩ 8 gold.view args = .ok m ∧
      5 ∈ m.overlay.writes.vars.keys ∧ 6 ∉ m.overlay.writes.vars.keys ∧
      m.overlay.writes.tokenCount.map UInt32.toNat = some 2 ∧
      m.overlay.writes.balances.keys ≠ []) ∧
    ∃ m, readBooks.run ⟨.bookkeeping, {}⟩ 8 gold.view args = .ok m ∧ m.overlay.writes = {} := by
  intro gold holder args
  constructor
  · have hok : (bookIssue.run ⟨.bookkeeping, {}⟩ 8 gold.view args).isOk = true := by
      decide +kernel
    obtain ⟨m, hrun⟩ := exists_of_isOk hok
    obtain ⟨hvars, -, hcount, -, hbalances, -⟩ := writes_what_code_names hrun
    refine ⟨m, hrun, (hvars 5).mpr (by decide), mt (hvars 6).mp (by decide), hcount, ?_⟩
    exact hbalances.mpr (by decide)
  · have hok : (readBooks.run ⟨.bookkeeping, {}⟩ 8 gold.view args).isOk = true := by
      decide +kernel
    obtain ⟨m, hrun⟩ := exists_of_isOk hok
    obtain ⟨-, -, -, -, -, hreads⟩ := writes_what_code_names hrun
    exact ⟨m, hrun, (hreads (by decide)).1⟩

end ContractMachine
