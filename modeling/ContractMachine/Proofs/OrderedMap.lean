import ContractMachine.OrderedMap
import Mathlib.Data.List.Induction
import Mathlib.Data.List.Sort

/-! Ordered maps are determined by look-up, so inserting and merging may be reordered; sums over
the entries of a map change by the new entry less the one that it replaces. -/

namespace ContractMachine.OrderedMap

variable {κ ν : Type} [SortKey κ]

/-! ### Look-up and membership -/

theorem compare_self (k : κ) : SortKey.compare k k = .eq :=
  SortKey.compare_eq_iff.mpr rfl

theorem lookup_cons_self (k : κ) (v : ν) (rest : List (κ × ν)) :
    lookup k ((k, v) :: rest) = some v := by
  simp [lookup, compare_self]

theorem lookup_cons_of_ne {k k' : κ} (v : ν) (rest : List (κ × ν)) (h : k ≠ k') :
    lookup k ((k', v) :: rest) = lookup k rest := by
  have hne : SortKey.compare k k' ≠ .eq := mt SortKey.compare_eq_iff.mp h
  rw [lookup]
  split
  · contradiction
  · rfl

theorem lookup_eq_none_of_lt {k : κ} {entries : List (κ × ν)}
    (h : ∀ e ∈ entries, SortKey.compare k e.1 = .lt) : lookup k entries = none := by
  induction entries with
  | nil => rfl
  | cons head rest ih =>
      obtain ⟨k', v'⟩ := head
      have hhead : SortKey.compare k k' = .lt := h (k', v') List.mem_cons_self
      simp only [lookup, hhead]
      exact ih fun e he => h e (List.mem_cons_of_mem _ he)

theorem lookup_eq_some_iff {k : κ} {v : ν} {entries : List (κ × ν)}
    (hsorted : entries.Pairwise fun x y => SortKey.compare x.1 y.1 = .lt) :
    lookup k entries = some v ↔ (k, v) ∈ entries := by
  induction entries with
  | nil => simp [lookup]
  | cons head rest ih =>
      obtain ⟨k', v'⟩ := head
      obtain ⟨hhead, hrest⟩ := List.pairwise_cons.mp hsorted
      by_cases hk : k = k'
      · subst hk
        have hnone : (k, v) ∉ rest := by
          intro hmem
          have hlt := hhead (k, v) hmem
          rw [compare_self] at hlt
          contradiction
        simp [lookup_cons_self, hnone, eq_comm]
      · rw [lookup_cons_of_ne v' rest hk, ih hrest]
        simp [hk]

theorem get?_eq_some_iff {m : OrderedMap κ ν} {k : κ} {v : ν} :
    m.get? k = some v ↔ (k, v) ∈ m.toList :=
  lookup_eq_some_iff m.sorted

/-- Maps that answer every look-up alike are the same. -/
theorem ext_get? {m n : OrderedMap κ ν} (h : ∀ k, m.get? k = n.get? k) : m = n := by
  have hirrefl : Std.Irrefl fun x y : κ × ν => SortKey.compare x.1 y.1 = .lt :=
    ⟨fun x hx => by simp [compare_self] at hx⟩
  have hantisymm : Std.Antisymm fun x y : κ × ν => SortKey.compare x.1 y.1 = .lt := by
    constructor
    intro x y hxy hyx
    have hxx := SortKey.compare_lt_trans hxy hyx
    simp [compare_self] at hxx
  have hlists : m.toList = n.toList := by
    refine m.sorted.eq_of_mem_iff n.sorted fun ⟨k, v⟩ => ?_
    rw [← get?_eq_some_iff, ← get?_eq_some_iff, h k]
  cases m
  cases n
  simp_all

/-! ### Keys -/

theorem mem_keys_iff {m : OrderedMap κ ν} {k : κ} : k ∈ m.keys ↔ ∃ v, m.get? k = some v := by
  simp [keys, get?_eq_some_iff]

theorem mem_keys_insert {m : OrderedMap κ ν} {k j : κ} {v : ν} :
    j ∈ (m.insert k v).keys ↔ j = k ∨ j ∈ m.keys := by
  by_cases h : j = k
  · subst h
    simp [mem_keys_iff]
  · simp [mem_keys_iff, get?_insert_of_ne m v h, h]

theorem keys_insert_ne_nil (m : OrderedMap κ ν) (k : κ) (v : ν) : (m.insert k v).keys ≠ [] :=
  List.ne_nil_of_mem (mem_keys_insert.mpr (.inl rfl))

theorem eq_empty_of_keys {m : OrderedMap κ ν} (h : ∀ k, k ∉ m.keys) : m = ∅ := by
  refine ext_get? fun k => ?_
  cases hk : m.get? k with
  | none => rfl
  | some v => exact absurd (mem_keys_iff.mpr ⟨v, hk⟩) (h k)

/-! ### Merging -/

theorem get?_foldl_insert (entries : List (κ × ν)) (m : OrderedMap κ ν) (k : κ)
    (hsorted : entries.Pairwise fun x y => SortKey.compare x.1 y.1 = .lt) :
    (entries.foldl (fun m e => m.insert e.1 e.2) m).get? k =
      (lookup k entries).or (m.get? k) := by
  induction entries generalizing m with
  | nil => rfl
  | cons head rest ih =>
      obtain ⟨k', v'⟩ := head
      obtain ⟨hhead, hrest⟩ := List.pairwise_cons.mp hsorted
      rw [List.foldl_cons, ih _ hrest]
      by_cases hk : k = k'
      · subst hk
        simp [lookup_cons_self, lookup_eq_none_of_lt hhead]
      · rw [get?_insert_of_ne m v' hk, lookup_cons_of_ne v' rest hk]

/-- What is merged in hides what was there. -/
@[simp] theorem get?_merge (m n : OrderedMap κ ν) (k : κ) :
    (m.merge n).get? k = (n.get? k).or (m.get? k) :=
  get?_foldl_insert n.toList m k n.sorted

@[simp] theorem merge_empty (m : OrderedMap κ ν) : m.merge ∅ = m := rfl

theorem merge_insert (m n : OrderedMap κ ν) (k : κ) (v : ν) :
    m.merge (n.insert k v) = (m.merge n).insert k v := by
  refine ext_get? fun j => ?_
  by_cases hj : j = k
  · subst hj
    simp
  · simp [get?_insert_of_ne _ v hj]

/-! ### Sums over the entries -/

def sumEntries (measure : κ → ν → Int) : List (κ × ν) → Int
  | [] => 0
  | e :: rest => measure e.1 e.2 + sumEntries measure rest

/-- The sum of a measure of the entries. -/
def sum (m : OrderedMap κ ν) (measure : κ → ν → Int) : Int := sumEntries measure m.toList

theorem sumEntries_insertEntry (measure : κ → ν → Int) (k : κ) (v : ν)
    {entries : List (κ × ν)}
    (hsorted : entries.Pairwise fun x y => SortKey.compare x.1 y.1 = .lt) :
    sumEntries measure (insertEntry k v entries) =
      sumEntries measure entries + measure k v -
        ((lookup k entries).map (measure k)).getD 0 := by
  induction entries with
  | nil => simp [insertEntry, lookup, sumEntries]
  | cons head rest ih =>
      obtain ⟨k', v'⟩ := head
      obtain ⟨hhead, hrest⟩ := List.pairwise_cons.mp hsorted
      cases hk : SortKey.compare k k' with
      | lt =>
          have hnone : lookup k rest = none :=
            lookup_eq_none_of_lt fun e he => SortKey.compare_lt_trans hk (hhead e he)
          simp only [insertEntry, lookup, hk, hnone, sumEntries, Option.map_none, Option.getD_none]
          omega
      | eq =>
          obtain rfl := SortKey.compare_eq_iff.mp hk
          simp only [insertEntry, lookup, hk, sumEntries, Option.map_some, Option.getD_some]
          omega
      | gt =>
          simp only [insertEntry, lookup, hk, sumEntries, ih hrest]
          omega

/-- Writing an entry changes a sum by the new entry less the one that it replaces. -/
theorem sum_insert (m : OrderedMap κ ν) (measure : κ → ν → Int) (k : κ) (v : ν) :
    (m.insert k v).sum measure =
      m.sum measure + measure k v - ((m.get? k).map (measure k)).getD 0 :=
  sumEntries_insertEntry measure k v m.sorted

/-! ### Entries under the numbers of a list -/

section Numbered

variable {α : Type}

/-- What belongs to the first 256 members, each under its position. -/
def numbered (g : α → ν) (xs : List α) : OrderedMap UInt8 ν :=
  .ofList ((xs.take 256).zipIdx.map fun e => (UInt8.ofNat e.2, g e.1))

theorem numbered_concat (g : α → ν) (xs : List α) (x : α) (h : xs.length < 256) :
    numbered g (xs ++ [x]) = (numbered g xs).insert (UInt8.ofNat xs.length) (g x) := by
  have hall : xs.take 256 = xs := List.take_of_length_le (by omega)
  have hext : (xs ++ [x]).take 256 = xs ++ [x] := by
    apply List.take_of_length_le
    simp only [List.length_append, List.length_singleton]
    omega
  simp [numbered, hall, hext, List.zipIdx_append, ofList]

theorem get?_numbered (g : α → ν) (xs : List α) (i : UInt8) :
    (numbered g xs).get? i = xs[i.toNat]?.map g := by
  have hi : i.toNat < 256 := i.toNat_lt
  induction xs using List.reverseRecOn with
  | nil => rfl
  | append_singleton xs x ih =>
      by_cases hfull : xs.length < 256
      · rw [numbered_concat g xs x hfull, get?_insert]
        by_cases hat : i.toNat = xs.length
        · have hkey : i = UInt8.ofNat xs.length := by
            rw [← hat, UInt8.ofNat_toNat]
          simp [hkey, Nat.mod_eq_of_lt hfull]
        · have hkey : i ≠ UInt8.ofNat xs.length := by
            rintro rfl
            exact hat (by simp [Nat.mod_eq_of_lt hfull])
          rw [if_neg hkey, ih]
          by_cases hlt : i.toNat < xs.length
          · rw [List.getElem?_append_left hlt]
          · rw [List.getElem?_eq_none (by omega), List.getElem?_eq_none (by simp; omega)]
      · have hsame : numbered g (xs ++ [x]) = numbered g xs := by
          simp only [numbered]
          rw [List.take_append_of_le_length (by omega)]
        rw [hsame, ih, List.getElem?_append_left (by omega)]

end Numbered

end ContractMachine.OrderedMap
