import ContractMachine.SortKey

/-! Finite maps kept in the order of their sort keys. Insertion replaces the entry of an equal
key, so a key occurs once and the last write wins. -/

namespace ContractMachine

/-- Entries in strictly ascending key order. -/
structure OrderedMap (κ ν : Type) [SortKey κ] where
  toList : List (κ × ν)
  sorted : toList.Pairwise fun x y => SortKey.compare x.1 y.1 = .lt

namespace OrderedMap

variable {κ ν : Type} [SortKey κ]

def empty : OrderedMap κ ν := ⟨[], .nil⟩

instance : EmptyCollection (OrderedMap κ ν) := ⟨empty⟩

instance : Inhabited (OrderedMap κ ν) := ⟨empty⟩

def lookup (k : κ) : List (κ × ν) → Option ν
  | [] => none
  | (k', v) :: rest =>
    match SortKey.compare k k' with
    | .eq => some v
    | _ => lookup k rest

def insertEntry (k : κ) (v : ν) : List (κ × ν) → List (κ × ν)
  | [] => [(k, v)]
  | (k', v') :: rest =>
    match SortKey.compare k k' with
    | .lt => (k, v) :: (k', v') :: rest
    | .eq => (k, v) :: rest
    | .gt => (k', v') :: insertEntry k v rest

theorem mem_insertEntry {k : κ} {v : ν} {e : κ × ν} {entries : List (κ × ν)}
    (h : e ∈ insertEntry k v entries) : e = (k, v) ∨ e ∈ entries := by
  induction entries with
  | nil => simpa [insertEntry] using h
  | cons head rest ih =>
    obtain ⟨k', v'⟩ := head
    simp only [insertEntry] at h
    split at h
    · simpa using h
    · rcases List.mem_cons.mp h with h | h
      · exact .inl h
      · exact .inr (List.mem_cons_of_mem _ h)
    · rcases List.mem_cons.mp h with h | h
      · exact .inr (h ▸ List.mem_cons_self)
      · exact (ih h).imp id (List.mem_cons_of_mem _)

theorem sorted_insertEntry (k : κ) (v : ν) {entries : List (κ × ν)}
    (h : entries.Pairwise fun x y => SortKey.compare x.1 y.1 = .lt) :
    (insertEntry k v entries).Pairwise fun x y => SortKey.compare x.1 y.1 = .lt := by
  induction entries with
  | nil => simp [insertEntry]
  | cons head rest ih =>
    obtain ⟨k', v'⟩ := head
    obtain ⟨hhead, hrest⟩ := List.pairwise_cons.mp h
    simp only [insertEntry]
    split
    · rename_i hk
      refine List.pairwise_cons.mpr ⟨fun e he => ?_, h⟩
      rcases List.mem_cons.mp he with rfl | he
      · exact hk
      · exact SortKey.compare_lt_trans hk (hhead e he)
    · rename_i hk
      obtain rfl := SortKey.compare_eq_iff.mp hk
      exact List.pairwise_cons.mpr ⟨hhead, hrest⟩
    · rename_i hk
      refine List.pairwise_cons.mpr ⟨fun e he => ?_, ih hrest⟩
      rcases mem_insertEntry he with rfl | he
      · exact SortKey.compare_gt_iff.mp hk
      · exact hhead e he

/-- The value stored under a key. -/
def get? (m : OrderedMap κ ν) (k : κ) : Option ν := lookup k m.toList

def contains (m : OrderedMap κ ν) (k : κ) : Bool := (m.get? k).isSome

/-- Store a value under a key, replacing what was there. -/
def insert (m : OrderedMap κ ν) (k : κ) (v : ν) : OrderedMap κ ν :=
  ⟨insertEntry k v m.toList, sorted_insertEntry k v m.sorted⟩

/-- Later entries of the list win. -/
def ofList (entries : List (κ × ν)) : OrderedMap κ ν :=
  entries.foldl (fun m e => m.insert e.1 e.2) empty

/-- Insert every entry of `n` into `m`. -/
def merge (m n : OrderedMap κ ν) : OrderedMap κ ν :=
  n.toList.foldl (fun m e => m.insert e.1 e.2) m

def size (m : OrderedMap κ ν) : Nat := m.toList.length

def keys (m : OrderedMap κ ν) : List κ := m.toList.map Prod.fst

theorem lookup_insertEntry (k j : κ) (v : ν) (entries : List (κ × ν)) :
    lookup j (insertEntry k v entries) =
      if SortKey.compare j k = .eq then some v else lookup j entries := by
  induction entries with
  | nil => by_cases h : SortKey.compare j k = .eq <;> simp [insertEntry, lookup, h]
  | cons head rest ih =>
    obtain ⟨k', v'⟩ := head
    simp only [insertEntry]
    split
    · by_cases h : SortKey.compare j k = .eq <;> simp [lookup, h]
    · rename_i hk
      obtain rfl := SortKey.compare_eq_iff.mp hk
      by_cases h : SortKey.compare j k = .eq <;> simp [lookup, h]
    · rename_i hk
      by_cases h : SortKey.compare j k = .eq
      · obtain rfl := SortKey.compare_eq_iff.mp h
        simp [lookup, hk, ih, h]
      · simp [lookup, ih, h]

@[simp] theorem get?_empty (k : κ) : (empty : OrderedMap κ ν).get? k = none := rfl

@[simp] theorem get?_insert_self (m : OrderedMap κ ν) (k : κ) (v : ν) :
    (m.insert k v).get? k = some v := by
  simp [get?, insert, lookup_insertEntry, SortKey.compare_eq_iff]

theorem get?_insert_of_ne (m : OrderedMap κ ν) {k j : κ} (v : ν) (h : j ≠ k) :
    (m.insert k v).get? j = m.get? j := by
  simp [get?, insert, lookup_insertEntry, SortKey.compare_eq_iff, h]

theorem get?_insert [DecidableEq κ] (m : OrderedMap κ ν) (k j : κ) (v : ν) :
    (m.insert k v).get? j = if j = k then some v else m.get? j := by
  by_cases h : j = k
  · simp [h]
  · simp [h, get?_insert_of_ne m v h]

/-- A map filled from the back of a list has, under each key, the first member with that key. -/
theorem get?_ofList_reverse [DecidableEq κ] (key : ν → κ) (xs : List ν) (k : κ) :
    (ofList (xs.reverse.map fun x => (key x, x))).get? k = xs.find? fun x => key x == k := by
  induction xs with
  | nil => rfl
  | cons x rest ih =>
    have hlast : ofList ((x :: rest).reverse.map fun y => (key y, y)) =
        (ofList (rest.reverse.map fun y => (key y, y))).insert (key x) x := by
      simp [ofList]
    rw [hlast, get?_insert, List.find?_cons]
    by_cases h : key x = k
    · simp [h]
    · rw [if_neg (Ne.symm h), ih, beq_false_of_ne h]

end OrderedMap

instance : SortKey UInt8 where
  key n := [Int.ofNat n.toNat]
  key_injective h := UInt8.toNat_inj.mp (Int.ofNat.inj (List.cons.inj h).1)

instance : SortKey UInt16 where
  key n := [Int.ofNat n.toNat]
  key_injective h := UInt16.toNat_inj.mp (Int.ofNat.inj (List.cons.inj h).1)

instance : SortKey UInt32 where
  key n := [Int.ofNat n.toNat]
  key_injective h := UInt32.toNat_inj.mp (Int.ofNat.inj (List.cons.inj h).1)

end ContractMachine
