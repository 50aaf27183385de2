import ContractMachine.Proofs.Wire.Readers

/-! What a reader has taken. From a reader that succeeds one goes back to the bytes that it took
off the front and to how they stand for what it read. -/

namespace ContractMachine.Reader

variable {α β : Type} {R : Bytes → α → Prop} {S : Bytes → β → Prop}

/-- Whatever the reader reads, the bytes that it takes for it are in the relation to it. -/
def Takes (reader : Reader α) (R : Bytes → α → Prop) : Prop :=
  ∀ cursor a next, reader cursor = .ok a next →
    ∃ bytes, cursor.rest = bytes ++ next.rest ∧ R bytes a

theorem exists_of_bind_eq_ok {reader : Reader α} {next : α → Reader β} {cursor last : Cursor}
    {b : β} (h : (reader >>= next) cursor = .ok b last) :
    ∃ a between, reader cursor = .ok a between ∧ next a between = .ok b last := by
  change EStateM.bind reader next cursor = .ok b last at h
  rw [EStateM.bind] at h
  cases hfirst : reader cursor with
  | ok a between =>
      rw [hfirst] at h
      exact ⟨a, between, rfl, h⟩
  | error e between =>
      rw [hfirst] at h
      cases h

/-! ### Sequences and choices -/

theorem Takes.imp {R' : Bytes → α → Prop} {reader : Reader α} (h : reader.Takes R)
    (himp : ∀ bytes a, R bytes a → R' bytes a) : reader.Takes R' := by
  intro cursor a next hread
  obtain ⟨bytes, hrest, hbytes⟩ := h cursor a next hread
  exact ⟨bytes, hrest, himp bytes a hbytes⟩

theorem takes_pure {a : α} (h : R [] a) : Takes (pure a) R := by
  intro cursor b next hread
  cases hread
  exact ⟨[], rfl, h⟩

theorem takes_throw (e : DecodeError) : Takes (throw e : Reader α) R := by
  intro cursor a next hread
  cases hread

theorem Takes.bind {reader : Reader α} {next : α → Reader β} (h : reader.Takes R)
    (hnext : ∀ first a, R first a → (next a).Takes fun second b => S (first ++ second) b) :
    (reader >>= next).Takes S := by
  intro cursor b last hread
  obtain ⟨a, between, hfirst, hsecond⟩ := exists_of_bind_eq_ok hread
  obtain ⟨first, hrest, ha⟩ := h cursor a between hfirst
  obtain ⟨second, hrest', hb⟩ := hnext first a ha between b last hsecond
  refine ⟨first ++ second, ?_, hb⟩
  rw [hrest, hrest', List.append_assoc]

/-- What follows only turns what was read into something else. -/
theorem Takes.bind_pure {reader : Reader α} {f : α → β} (h : reader.Takes R)
    (hf : ∀ bytes a, R bytes a → S bytes (f a)) :
    Takes (reader >>= fun a => pure (f a)) S := by
  refine h.bind fun bytes a ha => takes_pure ?_
  rw [List.append_nil]
  exact hf bytes a ha

theorem takes_position_bind {next : Nat → Reader β} (h : ∀ offset, (next offset).Takes S) :
    Takes (position >>= next) S := by
  intro cursor b last hread
  exact h cursor.position cursor b last hread

theorem takes_ite {c : Prop} [Decidable c] {reader reader' : Reader α}
    (h : c → reader.Takes R) (h' : ¬c → reader'.Takes R) :
    Takes (if c then reader else reader') R := by
  split
  · rename_i hc
    exact h hc
  · rename_i hc
    exact h' hc

/-! ### Bytes and text -/

theorem takes_byte {T : Bytes → UInt8 → Prop} (h : ∀ b, T [b] b) : byte.Takes T := by
  intro cursor b next hread
  obtain ⟨position, rest⟩ := cursor
  cases rest with
  | nil => cases hread
  | cons head rest =>
      cases hread
      exact ⟨[b], rfl, h b⟩

theorem takes_fixed {n : Nat} {T : Bytes → FixedBytes n → Prop}
    (h : ∀ a : FixedBytes n, T a.bytes a) : (fixed n).Takes T := by
  intro cursor a next hread
  rw [fixed] at hread
  split at hread
  · rename_i hlength
    cases hread
    exact ⟨_, (List.take_append_drop n cursor.rest).symm, h ⟨cursor.rest.take n, hlength⟩⟩
  · cases hread

theorem takes_take {n : Nat} {T : Bytes → Bytes → Prop}
    (h : ∀ bytes, bytes.length = n → T bytes bytes) : (take n).Takes T := by
  have hfixed : (fixed n).Takes fun bytes a => bytes = a.bytes := takes_fixed fun _ => rfl
  refine hfixed.bind_pure fun bytes a hbytes => ?_
  subst hbytes
  exact h a.bytes a.length_bytes

theorem takes_decodeText (offset : Nat) (bytes : Bytes) :
    (decodeText offset bytes).Takes fun second s => second = [] ∧ Text.decode? bytes = some s := by
  rw [decodeText]
  split
  · rename_i s hs
    exact takes_pure ⟨rfl, hs⟩
  · exact takes_throw _

/-! ### Whole byte strings -/

theorem rest_eq_nil_of_finish {cursor last : Cursor} {u : Unit}
    (h : finish cursor = .ok u last) : cursor.rest = [] := by
  rw [finish] at h
  split at h
  · assumption
  · cases h

/-- A whole byte string that is read is what the reader took. -/
theorem Takes.of_runWhole {reader : Reader α} (h : reader.Takes R) {bytes : Bytes} {a : α}
    (hread : reader.runWhole bytes = .ok a) : R bytes a := by
  simp only [runWhole] at hread
  split at hread
  · rename_i b last hwhole
    obtain rfl : b = a := Except.ok.inj hread
    obtain ⟨c, between, hfirst, hend⟩ := exists_of_bind_eq_ok hwhole
    obtain ⟨u, last', hfinish, hresult⟩ := exists_of_bind_eq_ok hend
    obtain rfl : c = b := (EStateM.Result.ok.inj hresult).1
    obtain ⟨taken, hrest, htaken⟩ := h _ c between hfirst
    rw [rest_eq_nil_of_finish hfinish, List.append_nil] at hrest
    change bytes = taken at hrest
    exact hrest ▸ htaken
  · cases hread

end ContractMachine.Reader
