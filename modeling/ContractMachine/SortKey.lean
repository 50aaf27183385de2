/-! Sort keys. Members of a type with a sort key are told apart by a list of integers and
ordered as those lists are, lexicographically. -/

namespace ContractMachine

/-- A type whose members are spelled, without loss, as lists of integers. -/
class SortKey (κ : Type) where
  key : κ → List Int
  key_injective : ∀ {a b : κ}, key a = key b → a = b

namespace SortKey

/-- Lexicographic order of integer lists; a proper beginning comes first. -/
def compareLists : List Int → List Int → Ordering :=
  (@List.instOrd Int instOrdInt).compare

theorem compareLists_eq_iff {xs ys : List Int} : compareLists xs ys = .eq ↔ xs = ys :=
  (@List.instLawfulEqOrd Int instOrdInt _).compare_eq_iff_eq

theorem compareLists_gt_iff {xs ys : List Int} :
    compareLists xs ys = .gt ↔ compareLists ys xs = .lt :=
  (@List.instTransOrd Int instOrdInt _).toOrientedCmp.gt_iff_lt

theorem compareLists_lt_trans {xs ys zs : List Int} (h : compareLists xs ys = .lt)
    (h' : compareLists ys zs = .lt) : compareLists xs zs = .lt :=
  (@List.instTransOrd Int instOrdInt _).lt_trans h h'

variable {κ : Type} [SortKey κ]

/-- The order of the keys. -/
def compare (a b : κ) : Ordering := compareLists (key a) (key b)

theorem compare_eq_iff {a b : κ} : compare a b = .eq ↔ a = b :=
  compareLists_eq_iff.trans ⟨key_injective, congrArg key⟩

theorem compare_gt_iff {a b : κ} : compare a b = .gt ↔ compare b a = .lt :=
  compareLists_gt_iff

theorem compare_lt_trans {a b c : κ} (h : compare a b = .lt) (h' : compare b c = .lt) :
    compare a c = .lt :=
  compareLists_lt_trans h h'

end SortKey

end ContractMachine
